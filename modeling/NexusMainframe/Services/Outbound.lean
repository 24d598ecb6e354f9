import NexusMainframe.Lib.JsonText
import NexusMainframe.Mqtt.Encoding
import NexusMainframe.Server.WsFrame
import NexusMainframe.Services.WsService

/-!
# From the WebSocket clients to the broker

The thread of a client reads frames and hands their texts to the WebSocket service, which lets the
MQTT client subscribe and publish. The main thread subscribes to the topics of the events
`mqtt:subscribe`, and the ping thread sends its packet now and then. All of them write to the
one socket of the broker.

A step of `Outbound` is what a thread does up to its next call of `::send`, or that call with the
packet that it is for. The maps of the service do not matter to what is sent, and are whatever
they are.
-/

namespace NexusMainframe

open Stream (Socket)
open WsService (Effect IsCommand)

/-- Who sends a packet: `connect`, the thread of a client, the main thread in the handler of
`mqtt:subscribe`, or the ping thread. -/
inductive Outbound.Origin where
  | connect
  | client (id : Int)
  | handler
  | ping
deriving DecidableEq

/-- The MQTT client, the sockets of the WebSocket clients, what each thread is about to call,
and what is on the socket of the broker. -/
structure Outbound where
  mqtt : MQTTClient
  started : Bool
  sockets : Int → Socket
  todo : Outbound.Origin → List Effect
  wire : Bytes

namespace Outbound

/-- Nobody has come yet, and nothing is sent. -/
def init (clientId : Bytes) (sockets : Int → Socket) : Outbound where
  mqtt := .init clientId
  started := false
  sockets := sockets
  todo := fun _ => []
  wire := []

/-- The steps; `sent` is what `::send` returns. -/
inductive Act where
  | start (sock sent : Int)
  | read (id : Int) (maps : WsService)
  | event (data : EventData)
  | call (o : Origin) (pid : UInt16) (sent : Int)
  | ping (sent : Int)

/-- The packets that a step hands to `::send`. -/
def packets (s : Outbound) : Act → List Bytes
  | .start sock sent => MQTTClient.packets (s.mqtt.connect sock 0 sent).2.2
  | .call o pid sent =>
      match s.todo o with
      | [] => []
      | .subscribe topic :: _ => MQTTClient.packets (s.mqtt.subscribe pid topic sent).2.2
      | .publish topic payload :: _ => MQTTClient.packets (s.mqtt.publish topic payload sent).2
  | .ping sent => MQTTClient.packets (s.mqtt.sendPacket [0xC0, 0x00] sent).2
  | .read _ _ | .event _ => []

/-- What `::send` returns in a step. -/
def Act.sent : Act → Int
  | .start _ sent | .call _ _ sent | .ping sent => sent
  | .read _ _ | .event _ => 0

/-- The packets of a step go to the socket, as far as `::send` takes them. -/
def put (s : Outbound) (a : Act) : Outbound :=
  { s with wire := s.wire ++ (s.packets a).flatMap fun packet => packet.take a.sent.toNat }

/-- The thread of a client calls the message handler with a payload. An exception of it ends the
program. -/
def onMessage (parse : Bytes → Option Json) (s : Outbound) (id : Int) (maps : WsService)
    (payload : Bytes) : Option Outbound :=
  if payload = [] then some s
  else
    match WsService.onWsMessage parse maps id payload with
    | .ok (_, effects) => some { s with todo := Function.update s.todo (.client id) effects }
    | .error _ => none

/-- A step of one of the threads. -/
def step (parse : Bytes → Option Json) (s : Outbound) : Act → Option Outbound
  | .start sock sent =>
      if s.started ∨ sock < 0 then none
      else
        some { s.put (.start sock sent) with
          mqtt := (s.mqtt.connect sock 0 sent).2.1
          started := true }
  | .read id maps =>
      if s.started ∧ s.todo (.client id) = [] then
        match WsServer.readFrame (s.sockets id) with
        | .closed => some s
        | .threw => none
        | .returned payload _ rest =>
            onMessage parse { s with sockets := Function.update s.sockets id rest } id maps payload
      else none
  | .event data =>
      if s.started ∧ s.todo .handler = [] then
        match data with
        | .string topic =>
            some { s with todo := Function.update s.todo .handler [.subscribe topic] }
        | .empty | .stringPair _ _ => some s
      else none
  | .call o pid sent =>
      match s.todo o with
      | [] => none
      | _ :: effects =>
          some { s.put (.call o pid sent) with todo := Function.update s.todo o effects }
  | .ping sent => if s.started then some (s.put (.ping sent)) else none

/-! ### What the broker is to be told -/

/-- What a client tells the server in a frame. -/
inductive Command where
  | subscribe (topic : Bytes)
  | unsubscribe (topic : Bytes)
  | publish (topic payload : Bytes)
  | ping

/-- What of it is for the broker. -/
def Command.effects : Command → List Effect
  | .subscribe topic => [.subscribe topic]
  | .publish topic payload => [.publish topic payload]
  | .unsubscribe _ | .ping => []

/-- An unfragmented text frame with the text of a value. -/
structure IsText (parse : Bytes → Option Json) (f : WebSocket.Frame) (msg : Json) : Prop where
  fin : f.fin = true
  opcode : f.opcode = 1
  nonempty : f.payload ≠ []
  text : parse f.payload = some msg

/-- A frame with a command of a client: a ping, or an object with a type and a topic, and for a
publication the payload, which may be absent when it is empty. -/
def Says (parse : Bytes → Option Json) (f : WebSocket.Frame) : Command → Prop
  | .subscribe topic => ∃ msg, IsText parse f msg ∧ IsCommand (Bytes.ofAscii "subscribe") topic msg
  | .unsubscribe topic =>
      ∃ msg, IsText parse f msg ∧ IsCommand (Bytes.ofAscii "unsubscribe") topic msg
  | .publish topic payload =>
      ∃ msg, IsText parse f msg ∧ IsCommand (Bytes.ofAscii "publish") topic msg
        ∧ msg.value (Bytes.ofAscii "payload") [] = .ok payload
  | .ping => f.opcode = 9

/-- What the MQTT client can say in a packet with one byte of Remaining Length. -/
def Short : Effect → Prop
  | .subscribe topic => topic.length ≤ 122
  | .publish topic payload => topic.length + payload.length ≤ 125

instance : DecidablePred Short
  | .subscribe topic => inferInstanceAs (Decidable (topic.length ≤ 122))
  | .publish topic payload => inferInstanceAs (Decidable (topic.length + payload.length ≤ 125))

/-- A stream of frames with these commands, all of which fit. -/
structure Speaks (parse : Bytes → Option Json) (stream : Bytes) (cs : List Command) : Prop where
  frames : ∃ fs, stream = fs.flatMap WebSocket.Frame.encode ∧ List.Forall₂ (Says parse) fs cs
    ∧ ∀ f ∈ fs, f.payload.length < 2 ^ 32
  short : ∀ c ∈ cs, ∀ e ∈ c.effects, Short e

/-- What a packet tells the broker. -/
def effect? : Mqtt.Packet → Option Effect
  | .subscribe _ [(topic, 0)] => some (.subscribe topic)
  | .publish false topic payload => some (.publish topic payload)
  | _ => none

/-- The packets of an origin, in order. -/
def sentBy (sent : List (Origin × Mqtt.Packet)) (o : Origin) : List Mqtt.Packet :=
  (sent.filter fun p => p.1 = o).map Prod.snd

/-- How many frames the thread of a client has read. -/
def reads (acts : List Act) (id : Int) : Nat :=
  acts.countP fun
    | .read id' _ => id' = id
    | _ => false

/-- The topics of the events that the main thread has handled. -/
def topics (acts : List Act) : List Bytes :=
  acts.filterMap fun
    | .event (.string topic) => some topic
    | _ => none

/-- How often the ping thread has sent its packet. -/
def pings (acts : List Act) : Nat :=
  acts.countP fun
    | .ping _ => true
    | _ => false

/-- What the broker is told first. -/
def hello (clientId : Bytes) : Mqtt.Packet :=
  .connect 2 60 clientId []

/-- What the broker has got: it reads whole packets, first the one of `connect`, and those of each
origin are what this one was to say, in order, apart from what it is still about to. -/
structure Told (clientId : Bytes) (said : Int → List Command) (acts : List Act) (s : Outbound)
    (sent : List (Origin × Mqtt.Packet)) : Prop where
  decoded : Mqtt.decodeAll s.wire.length s.wire = some (sent.map Prod.snd)
  connect : ∃ rest, sent = (.connect, hello clientId) :: rest ∧ sentBy rest .connect = []
  clients : ∀ id, (sentBy sent (.client id)).map effect? ++ (s.todo (.client id)).map some
    = (((said id).take (reads acts id)).flatMap Command.effects).map some
  handler : (sentBy sent .handler).map effect? ++ (s.todo .handler).map some
    = (topics acts).map fun topic => some (.subscribe topic)
  ping : sentBy sent .ping = List.replicate (pings acts) .pingreq

/-! ### Reading a command -/

section

variable {parse : Bytes → Option Json}

/-- A command makes the service call what it is for, whatever the maps are. -/
theorem exists_onWsMessage
    {f : WebSocket.Frame} {c : Command} (h : Says parse f c) (hping : f.opcode ≠ 9) (id : Int)
    (maps : WsService) :
  f.payload ≠ [] ∧ ∃ maps', WsService.onWsMessage parse maps id f.payload = .ok (maps', c.effects)
  := by
  cases c with
  | ping => exact (hping h).elim
  | subscribe topic =>
      obtain ⟨msg, htext, members, rfl, htype, htopic, hne⟩ := h
      use htext.nonempty, maps.addSubscription id topic
      rw [WsService.onWsMessage, htext.text]
      simp [Json.value, htype, htopic, hne, bind, Except.bind, Command.effects]
  | unsubscribe topic =>
      obtain ⟨msg, htext, members, rfl, htype, htopic, hne⟩ := h
      use htext.nonempty, maps.removeSubscription id topic
      have hnot : Bytes.ofAscii "unsubscribe" ≠ Bytes.ofAscii "subscribe" := by decide
      rw [WsService.onWsMessage, htext.text]
      simp [Json.value, htype, htopic, hne, hnot, bind, Except.bind, Command.effects]
  | publish topic payload =>
      obtain ⟨msg, htext, ⟨members, rfl, htype, htopic, hne⟩, hpayload⟩ := h
      use htext.nonempty, maps
      have hsub : Bytes.ofAscii "publish" ≠ Bytes.ofAscii "subscribe" := by decide
      have hunsub : Bytes.ofAscii "publish" ≠ Bytes.ofAscii "unsubscribe" := by decide
      rw [WsService.onWsMessage, htext.text]
      simp only [bind, Except.bind, hpayload]
      simp [Json.value, htype, htopic, hne, hsub, hunsub, Command.effects]

/-- A stream with nothing left is found closed. -/
theorem Speaks.readFrame_nil
    {socket : Socket} (h : Speaks parse socket.bytes []) :
  WsServer.readFrame socket = .closed
  := by
  obtain ⟨fs, hbytes, hsays, -⟩ := h.frames
  obtain rfl := List.forall₂_nil_right_iff.mp hsays
  apply WsServer.readFrame_short (f := WebSocket.Frame.text none [])
  · decide
  · rw [hbytes]
    apply List.nil_prefix
  · rw [hbytes]
    decide

/-- The next frame is read with its command, and the rest of the stream is left. -/
theorem Speaks.readFrame_cons
    {socket : Socket} {c : Command} {cs : List Command} (h : Speaks parse socket.bytes (c :: cs)) :
  ∃ payload answer rest, WsServer.readFrame socket = .returned payload answer rest
    ∧ Speaks parse rest.bytes cs
    ∧ (payload = [] ∧ c.effects = []
      ∨ payload ≠ [] ∧ ∀ id maps, ∃ maps',
          WsService.onWsMessage parse maps id payload = .ok (maps', c.effects))
  := by
  obtain ⟨fs, hbytes, hsays, hlength⟩ := h.frames
  obtain ⟨f, fs, hf, hfs, rfl⟩ := List.forall₂_cons_right_iff.mp hsays
  rw [List.flatMap_cons] at hbytes
  obtain ⟨rest, hrest, hread⟩ := WsServer.readFrame_whole (hlength f List.mem_cons_self) hbytes
  have hspeaks : Speaks parse rest.bytes cs := by
    constructor
    · exact ⟨fs, hrest, hfs, fun g hg => hlength g (List.mem_cons_of_mem _ hg)⟩
    · exact fun c' hc' => h.short c' (List.mem_cons_of_mem _ hc')
  have hopen : f.opcode ≠ 8 := by
    intro hclose
    cases c with
    | ping => cases hclose.symm.trans hf
    | subscribe | unsubscribe | publish =>
        obtain ⟨msg, htext, -⟩ := hf
        cases hclose.symm.trans htext.opcode
  rw [if_neg hopen] at hread
  by_cases hping : f.opcode = 9
  · rw [if_pos hping] at hread
    refine ⟨_, _, rest, hread, hspeaks, .inl ⟨rfl, ?_⟩⟩
    cases c with
    | ping => rfl
    | subscribe | unsubscribe | publish =>
        obtain ⟨msg, htext, -⟩ := hf
        cases hping.symm.trans htext.opcode
  · rw [if_neg hping] at hread
    refine ⟨_, _, rest, hread, hspeaks, .inr ⟨?_, fun id maps => ?_⟩⟩
    · exact (exists_onWsMessage hf hping 0 ⟨∅, ∅⟩).1
    · exact (exists_onWsMessage hf hping id maps).2

end

/-! ### The packets of a step -/

/-- The packet for an effect. -/
def packetOf (pid : UInt16) : Effect → Mqtt.Packet
  | .subscribe topic => .subscribe pid.toNat [(topic, 0)]
  | .publish topic payload => .publish false topic payload

theorem effect?_packetOf (pid : UInt16) (e : Effect) :
  effect? (packetOf pid e) = some e
  := by
  cases e <;> rfl

theorem length_body_packetOf {pid : UInt16} {e : Effect} (h : Short e) :
  (packetOf pid e).body.length < 128
  := by
  cases e with
  | subscribe topic =>
      rw [Short] at h
      simp [packetOf, Mqtt.Packet.body, Mqtt.filter, Mqtt.string]
      omega
  | publish topic payload =>
      rw [Short] at h
      rw [packetOf, Mqtt.Packet.length_body_publish]
      omega

theorem encodable_packetOf {pid : UInt16} {e : Effect} (h : Short e) :
  (packetOf pid e).Encodable
  := by
  use (length_body_packetOf h).trans (by decide)
  cases e with
  | subscribe topic =>
      rw [Short] at h
      use pid.toNat_lt
      simp
      omega
  | publish topic payload =>
      rw [Short] at h
      change topic.length < 65536
      omega

theorem length_body_hello {clientId : Bytes} (h : clientId.length ≤ 115) :
  (hello clientId).body.length < 128
  := by
  have hname : (Bytes.ofAscii "MQTT").length = 4 := by decide
  simp [hello, Mqtt.Packet.body, Mqtt.protocol, Mqtt.string, hname]
  omega

theorem encodable_hello {clientId : Bytes} (h : clientId.length ≤ 115) :
  (hello clientId).Encodable
  := by
  use (length_body_hello h).trans (by decide)
  refine ⟨by decide, by decide, by omega, rfl, by simp⟩

variable {s : Outbound}

theorem packets_start
    {clientId : Bytes} (h : clientId.length ≤ 115) (hmqtt : s.mqtt = .init clientId) {sock : Int}
    (hsock : ¬ sock < 0) (sent : Int) :
  s.packets (.start sock sent) = [(hello clientId).encode]
  := by
  have hid : s.mqtt.clientId = clientId := by rw [hmqtt]; rfl
  rw [packets, MQTTClient.packets_connect, if_neg (by simpa using hsock), hid,
    MQTTClient.connectPacket_eq]
  exact congrArg ([·]) (MQTTClient.packet_eq_encode (length_body_hello h))

theorem packets_call
    {o : Origin} {e : Effect} {effects : List Effect} (htodo : s.todo o = e :: effects)
    (h : Short e) (pid : UInt16) (sent : Int) :
  s.packets (.call o pid sent) = [(packetOf pid e).encode]
  := by
  rw [← MQTTClient.packet_eq_encode (length_body_packetOf h)]
  rw [packets, htodo]
  cases e with
  | subscribe topic =>
      simp only [MQTTClient.packets_subscribe, MQTTClient.subscribePacket_eq]
      rfl
  | publish topic payload =>
      simp only [MQTTClient.packets_publish, MQTTClient.publishPacket_eq]
      rfl

theorem packets_ping (s : Outbound) (sent : Int) :
  s.packets (.ping sent) = [Mqtt.Packet.pingreq.encode]
  := rfl

/-- Every call of `::send` takes the packet that it is given. -/
def Whole (s : Outbound) (a : Act) : Prop :=
  ∀ packet ∈ s.packets a, a.sent = packet.length

instance (s : Outbound) (a : Act) : Decidable (s.Whole a) :=
  inferInstanceAs (Decidable (∀ packet ∈ s.packets a, a.sent = packet.length))

theorem wire_put
    {a : Act} {p : Mqtt.Packet} (hwhole : s.Whole a) (hpackets : s.packets a = [p.encode]) :
  (s.put a).wire = s.wire ++ p.encode
  := by
  have hsent := hwhole p.encode (by rw [hpackets]; exact List.mem_cons_self)
  simp [put, hpackets, hsent]

/-! ### Runs -/

/-- What an origin has told the broker, and what it is still about to tell. -/
def account (s : Outbound) (sent : List (Origin × Mqtt.Packet)) (o : Origin) :
    List (Option Effect) :=
  (sentBy sent o).map effect? ++ (s.todo o).map some

/-- What holds in every state of a run whose packets are taken whole. -/
structure Inv (parse : Bytes → Option Json) (clientId : Bytes) (said : Int → List Command)
    (acts : List Act) (s : Outbound) (sent : List (Origin × Mqtt.Packet)) : Prop where
  wire : s.wire = (sent.map Prod.snd).flatMap Mqtt.Packet.encode
  encodable : ∀ p ∈ sent.map Prod.snd, p.Encodable
  fresh : s.started = false → s.mqtt = .init clientId ∧ sent = [] ∧ ∀ o, s.todo o = []
  connect : s.started = true →
    ∃ rest, sent = (.connect, hello clientId) :: rest ∧ sentBy rest .connect = []
  sockets : ∀ id, Speaks parse (s.sockets id).bytes ((said id).drop (reads acts id))
  short : ∀ o, ∀ e ∈ s.todo o, Short e
  idle : s.todo .connect = [] ∧ s.todo .ping = []
  clients : ∀ id, account s sent (.client id)
    = (((said id).take (reads acts id)).flatMap Command.effects).map some
  handler : account s sent .handler = (topics acts).map fun topic => some (.subscribe topic)
  ping : sentBy sent .ping = List.replicate (pings acts) .pingreq

theorem sentBy_concat (sent : List (Origin × Mqtt.Packet)) (o o' : Origin) (p : Mqtt.Packet) :
  sentBy (sent ++ [(o', p)]) o = sentBy sent o ++ if o' = o then [p] else []
  := by
  rw [sentBy, List.filter_append, List.map_append]
  by_cases h : o' = o <;> simp [sentBy, h]

/-- A thread that sends the packet of an effect has told it, and is not about to any more. -/
theorem account_call
    {sent : List (Origin × Mqtt.Packet)} {o : Origin} {e : Effect} {effects : List Effect}
    (htodo : s.todo o = e :: effects) (pid : UInt16) {t : Outbound}
    (ht : t.todo = Function.update s.todo o effects) (o' : Origin) :
  account t (sent ++ [(o, packetOf pid e)]) o' = account s sent o'
  := by
  rw [account, account, sentBy_concat, ht]
  by_cases h : o = o'
  · subst h
    simp [htodo, effect?_packetOf]
  · simp [h, Function.update_of_ne (Ne.symm h)]

section

variable {parse : Bytes → Option Json} {clientId : Bytes} {said : Int → List Command}
  {acts : List Act} {t : Outbound} {sent : List (Origin × Mqtt.Packet)}

theorem Inv.start
    (h : Inv parse clientId said acts s sent) (hid : clientId.length ≤ 115) {sock n : Int}
    (hwhole : s.Whole (.start sock n)) (hstep : step parse s (.start sock n) = some t) :
  ∃ sent, Inv parse clientId said (acts ++ [.start sock n]) t sent
  := by
  simp only [step, Option.ite_none_left_eq_some, not_or, Option.some.injEq] at hstep
  obtain ⟨⟨hnew, hsock⟩, rfl⟩ := hstep
  obtain ⟨hmqtt, rfl, -⟩ := h.fresh (Bool.eq_false_of_not_eq_true hnew)
  have hreads : ∀ id, reads (acts ++ [.start sock n]) id = reads acts id := by
    simp [reads]
  have htopics : topics (acts ++ [.start sock n]) = topics acts := by simp [topics]
  have hpings : pings (acts ++ [.start sock n]) = pings acts := by simp [pings]
  use [(.connect, hello clientId)]
  constructor
  · simpa [h.wire] using wire_put hwhole (packets_start hid hmqtt hsock n)
  · simpa using encodable_hello hid
  · rintro ⟨⟩
  · exact fun _ => ⟨[], rfl, rfl⟩
  · intro id
    rw [hreads]
    exact h.sockets id
  · exact h.short
  · exact h.idle
  · intro id
    rw [hreads, ← h.clients]
    rfl
  · rw [htopics, ← h.handler]
    rfl
  · rw [hpings, ← h.ping]
    rfl

theorem Inv.call
    (h : Inv parse clientId said acts s sent) {o : Origin} {pid : UInt16} {n : Int}
    (hwhole : s.Whole (.call o pid n)) (hstep : step parse s (.call o pid n) = some t) :
  ∃ sent, Inv parse clientId said (acts ++ [.call o pid n]) t sent
  := by
  rw [step] at hstep
  split at hstep
  next => cases hstep
  next e effects htodo =>
    obtain rfl := Option.some.inj hstep
    have hshort : Short e := h.short o e (by rw [htodo]; exact List.mem_cons_self)
    have hreads : ∀ id, reads (acts ++ [.call o pid n]) id = reads acts id := by
      simp [reads]
    have htopics : topics (acts ++ [.call o pid n]) = topics acts := by simp [topics]
    have hpings : pings (acts ++ [.call o pid n]) = pings acts := by simp [pings]
    have hconnect : o ≠ .connect := by
      rintro rfl
      cases htodo.symm.trans h.idle.1
    have hping : o ≠ .ping := by
      rintro rfl
      cases htodo.symm.trans h.idle.2
    use sent ++ [(o, packetOf pid e)]
    constructor
    · have hwire := wire_put hwhole (packets_call htodo hshort pid n)
      simpa [h.wire] using hwire
    · intro p hp
      rw [List.map_append, List.mem_append] at hp
      rcases hp with hp | hp
      · exact h.encodable p hp
      · obtain rfl := List.mem_singleton.mp hp
        exact encodable_packetOf hshort
    · intro hnew
      cases htodo.symm.trans ((h.fresh hnew).2.2 o)
    · intro hstarted
      obtain ⟨rest, rfl, hrest⟩ := h.connect hstarted
      use rest ++ [(o, packetOf pid e)], rfl
      rw [sentBy_concat, if_neg hconnect, List.append_nil, hrest]
    · intro id
      rw [hreads]
      exact h.sockets id
    · intro o' e' he'
      by_cases ho : o' = o
      · subst ho
        apply h.short o'
        rw [htodo]
        apply List.mem_cons_of_mem
        simpa using he'
      · apply h.short o'
        simpa [Function.update_of_ne ho] using he'
    · simpa [Function.update_of_ne hconnect.symm, Function.update_of_ne hping.symm] using h.idle
    · intro id
      rw [account_call htodo pid rfl, h.clients, hreads]
    · rw [account_call htodo pid rfl, h.handler, htopics]
    · rw [sentBy_concat, if_neg hping, List.append_nil, h.ping, hpings]

theorem Inv.ping_step
    (h : Inv parse clientId said acts s sent) {n : Int} (hwhole : s.Whole (.ping n))
    (hstep : step parse s (.ping n) = some t) :
  ∃ sent, Inv parse clientId said (acts ++ [.ping n]) t sent
  := by
  rw [step, Option.ite_none_right_eq_some] at hstep
  obtain ⟨hstarted, hstep⟩ := hstep
  obtain rfl := Option.some.inj hstep
  have hreads : ∀ id, reads (acts ++ [.ping n]) id = reads acts id := by simp [reads]
  have htopics : topics (acts ++ [.ping n]) = topics acts := by simp [topics]
  have hpings : pings (acts ++ [.ping n]) = pings acts + 1 := by simp [pings]
  have haccount : ∀ o, o ≠ .ping → account (s.put (.ping n)) (sent ++ [(.ping, .pingreq)]) o
      = account s sent o := by
    intro o ho
    rw [account, sentBy_concat, if_neg ho.symm, List.append_nil]
    rfl
  use sent ++ [(.ping, .pingreq)]
  constructor
  · simpa [h.wire] using wire_put hwhole (packets_ping s n)
  · intro p hp
    rw [List.map_append, List.mem_append] at hp
    rcases hp with hp | hp
    · exact h.encodable p hp
    · obtain rfl := List.mem_singleton.mp hp
      exact ⟨by decide, trivial⟩
  · intro hnew
    cases hstarted.symm.trans hnew
  · intro _
    obtain ⟨rest, rfl, hrest⟩ := h.connect hstarted
    use rest ++ [(.ping, .pingreq)], rfl
    rw [sentBy_concat, if_neg (by simp), List.append_nil, hrest]
  · intro id
    rw [hreads]
    exact h.sockets id
  · exact h.short
  · exact h.idle
  · intro id
    rw [haccount _ (by simp), h.clients, hreads]
  · rw [haccount _ (by simp), h.handler, htopics]
  · rw [sentBy_concat, if_pos rfl, h.ping, hpings, List.replicate_succ']

/-- The main thread takes a topic from an event. -/
theorem Inv.event
    (h : Inv parse clientId said acts s sent) {data : EventData}
    (hshort : ∀ topic, data = .string topic → topic.length ≤ 122)
    (hstep : step parse s (.event data) = some t) :
  Inv parse clientId said (acts ++ [.event data]) t sent
  := by
  unfold step at hstep
  rw [Option.ite_none_right_eq_some] at hstep
  obtain ⟨⟨hstarted, hidle⟩, hstep⟩ := hstep
  have hreads : ∀ id, reads (acts ++ [.event data]) id = reads acts id := by simp [reads]
  have hpings : pings (acts ++ [.event data]) = pings acts := by simp [pings]
  have hclients : ∀ id, account s sent (.client id)
      = (((said id).take (reads (acts ++ [.event data]) id)).flatMap Command.effects).map some := by
    intro id
    rw [hreads]
    exact h.clients id
  have hsockets : ∀ id, Speaks parse (s.sockets id).bytes
      ((said id).drop (reads (acts ++ [.event data]) id)) := by
    intro id
    rw [hreads]
    exact h.sockets id
  cases data with
  | empty | stringPair _ _ =>
      obtain rfl := Option.some.inj hstep
      exact ⟨h.wire, h.encodable, h.fresh, h.connect, hsockets, h.short, h.idle, hclients,
        by simpa [topics] using h.handler, by rw [hpings]; exact h.ping⟩
  | string topic =>
      obtain rfl := Option.some.inj hstep
      have hhandler := h.handler
      refine ⟨h.wire, h.encodable, ?_, h.connect, hsockets, ?_, h.idle, hclients, ?_,
        by rw [hpings]; exact h.ping⟩
      · intro hnew
        cases hstarted.symm.trans hnew
      · intro o e he
        by_cases ho : o = .handler
        · subst ho
          obtain rfl : e = .subscribe topic := by simpa using he
          exact hshort topic rfl
        · apply h.short o
          simpa [Function.update_of_ne ho] using he
      · rw [account, hidle] at hhandler
        rw [account, topics, List.filterMap_append, List.map_append]
        change _ = (topics acts).map _ ++ _
        rw [← hhandler]
        simp

theorem take_drop_succ
    {α : Type} {xs ys : List α} {k : Nat} {x : α} (h : xs.drop k = x :: ys) :
  xs.take (k + 1) = xs.take k ++ [x] ∧ xs.drop (k + 1) = ys
  := by
  have hget : xs[k]? = some x := by
    rw [← List.head?_drop, h, List.head?_cons]
  constructor
  · rw [List.take_add_one, hget]
    rfl
  · rw [← List.drop_drop, h]
    rfl

theorem reads_read (acts : List Act) (id id' : Int) (maps : WsService) :
  reads (acts ++ [.read id maps]) id' = reads acts id' + if id = id' then 1 else 0
  := by
  by_cases hid : id = id' <;> simp [reads, hid]

/-- What a client is still to say, and what has been made of what it has said, when its thread
has read a frame and takes it for `effects`. -/
theorem Inv.read_of_effects
    (h : Inv parse clientId said acts s sent) (hstarted : s.started = true) {id : Int}
    (hidle : s.todo (.client id) = []) {c : Command} {cs : List Command}
    (hdrop : (said id).drop (reads acts id) = c :: cs) {rest : Socket}
    (hrest : Speaks parse rest.bytes cs) (maps : WsService) :
  Inv parse clientId said (acts ++ [.read id maps])
    { s with
      sockets := Function.update s.sockets id rest
      todo := Function.update s.todo (.client id) c.effects } sent
  := by
  obtain ⟨htake, hdrop'⟩ := take_drop_succ hdrop
  have hspeaks := h.sockets id
  rw [hdrop] at hspeaks
  refine ⟨h.wire, h.encodable, ?_, h.connect, ?_, ?_, ?_, ?_, ?_, ?_⟩
  · intro hnew
    cases hstarted.symm.trans hnew
  · intro id'
    rw [reads_read]
    by_cases hid : id = id'
    · subst hid
      rw [if_pos rfl, hdrop']
      simpa using hrest
    · rw [if_neg hid, Nat.add_zero]
      simpa [Function.update_of_ne (Ne.symm hid)] using h.sockets id'
  · intro o e he
    by_cases ho : o = .client id
    · subst ho
      apply hspeaks.short c List.mem_cons_self
      simpa using he
    · apply h.short o
      simpa [Function.update_of_ne ho] using he
  · simpa using h.idle
  · intro id'
    have hclients := h.clients id'
    rw [reads_read]
    by_cases hid : id = id'
    · subst hid
      rw [account, hidle] at hclients
      rw [account, if_pos rfl, htake, List.flatMap_append, List.map_append, ← hclients]
      simp
    · have hne : Origin.client id' ≠ .client id := fun heq => hid (Origin.client.inj heq).symm
      rw [if_neg hid, Nat.add_zero, ← hclients, account, account]
      simp [Function.update_of_ne hne]
  · have hhandler := h.handler
    simpa [account, topics] using hhandler
  · simpa [pings] using h.ping

/-- The thread of a client reads a frame and is about to do what the command says. -/
theorem Inv.read
    (h : Inv parse clientId said acts s sent) {id : Int} {maps : WsService}
    (hstep : step parse s (.read id maps) = some t) :
  Inv parse clientId said (acts ++ [.read id maps]) t sent
  := by
  unfold step at hstep
  rw [Option.ite_none_right_eq_some] at hstep
  obtain ⟨⟨hstarted, hidle⟩, hstep⟩ := hstep
  have hspeaks := h.sockets id
  cases hdrop : (said id).drop (reads acts id) with
  | nil =>
      rw [hdrop] at hspeaks
      rw [hspeaks.readFrame_nil] at hstep
      obtain rfl := Option.some.inj hstep
      have hle : (said id).length ≤ reads acts id := List.drop_eq_nil_iff.mp hdrop
      have htake : ∀ id', (said id').take (reads (acts ++ [.read id maps]) id')
          = (said id').take (reads acts id') := by
        intro id'
        rw [reads_read]
        split
        next heq =>
          subst heq
          rw [List.take_of_length_le hle, List.take_of_length_le (by omega)]
        next => rfl
      have hdrop' : ∀ id', (said id').drop (reads (acts ++ [.read id maps]) id')
          = (said id').drop (reads acts id') := by
        intro id'
        rw [reads_read]
        split
        next heq =>
          subst heq
          rw [List.drop_of_length_le hle, List.drop_of_length_le (by omega)]
        next => rfl
      exact ⟨h.wire, h.encodable, h.fresh, h.connect, fun id' => hdrop' id' ▸ h.sockets id',
        h.short, h.idle, fun id' => htake id' ▸ h.clients id', by simpa [topics] using h.handler,
        by simpa [pings] using h.ping⟩
  | cons c cs =>
      rw [hdrop] at hspeaks
      obtain ⟨payload, answer, rest, hread, hrest, hmessage⟩ := hspeaks.readFrame_cons
      rw [hread] at hstep
      have hnext := h.read_of_effects hstarted hidle hdrop hrest maps
      rcases hmessage with ⟨rfl, heffects⟩ | ⟨hne, hok⟩
      · simp only [onMessage, if_true, Option.some.injEq] at hstep
        subst hstep
        rw [heffects, ← hidle, Function.update_eq_self] at hnext
        exact hnext
      · obtain ⟨maps', hok⟩ := hok id maps
        simp only [onMessage, if_neg hne, hok, Option.some.injEq] at hstep
        subst hstep
        exact hnext

theorem Inv.init
    {sockets : Int → Socket} (hsaid : ∀ id, Speaks parse (sockets id).bytes (said id)) :
  Inv parse clientId said [] (Outbound.init clientId sockets) []
  := by
  constructor
  · rfl
  · simp
  · exact fun _ => ⟨rfl, rfl, fun _ => rfl⟩
  · rintro ⟨⟩
  · exact hsaid
  · intro o e he
    cases he
  · exact ⟨rfl, rfl⟩
  · exact fun _ => rfl
  · rfl
  · rfl

theorem Inv.step
    (h : Inv parse clientId said acts s sent) (hid : clientId.length ≤ 115) {a : Act}
    (htopics : ∀ topic ∈ topics (acts ++ [a]), topic.length ≤ 122) (hwhole : s.Whole a)
    (hstep : Outbound.step parse s a = some t) :
  ∃ sent, Inv parse clientId said (acts ++ [a]) t sent
  := by
  cases a with
  | start sock n => exact h.start hid hwhole hstep
  | read id maps => exact ⟨sent, h.read hstep⟩
  | event data =>
      use sent
      apply h.event _ hstep
      rintro topic rfl
      apply htopics topic
      simp [topics]
  | call o pid n => exact h.call hwhole hstep
  | ping n => exact h.ping_step hwhole hstep

/-- Where each client sends commands that fit into short packets, in frames that may be cut in any
way, and every call of `::send` takes its packet: however the threads take turns, the broker reads
the packet of `connect` and then just the packets that were asked for, those of each client in
the order of its commands, and nothing of a command twice. -/
theorem commands_reach_broker
    (hid : clientId.length ≤ 115) {sockets : Int → Socket}
    (hsaid : ∀ id, Speaks parse (sockets id).bytes (said id))
    (hrun : Lts.run (Outbound.step parse) (Outbound.init clientId sockets) acts = some s)
    (hwhole : Lts.Guarded (Outbound.step parse) Whole (Outbound.init clientId sockets) acts)
    (htopics : ∀ topic ∈ topics acts, topic.length ≤ 122) (hstarted : s.started = true) :
  ∃ sent, Told clientId said acts s sent
  := by
  have hinv : (∀ topic ∈ topics acts, topic.length ≤ 122) →
      ∃ sent, Inv parse clientId said acts s sent := by
    apply Lts.guarded_induction (P := fun acts s => (∀ topic ∈ topics acts, topic.length ≤ 122) →
      ∃ sent, Inv parse clientId said acts s sent) _ _ hwhole hrun
    · intro _
      exact ⟨[], Inv.init hsaid⟩
    · intro acts t a u _ ih hwhole hstep htopics
      have hbefore : ∀ topic ∈ topics acts, topic.length ≤ 122 := by
        intro topic htopic
        apply htopics topic
        rw [topics, List.filterMap_append]
        exact List.mem_append_left _ htopic
      obtain ⟨sent, hinv⟩ := ih hbefore
      exact hinv.step hid htopics hwhole hstep
  obtain ⟨sent, hinv⟩ := hinv htopics
  use sent
  constructor
  · rw [hinv.wire]
    exact Mqtt.decodeAll_flatMap_encode hinv.encodable le_rfl
  · exact hinv.connect hstarted
  · exact hinv.clients
  · exact hinv.handler
  · exact hinv.ping

end

/-- A publication, as a client writes it. -/
def lampMessage : Json :=
  Json.ofStrings [(Bytes.ofAscii "payload", Bytes.ofAscii "on"),
    (Bytes.ofAscii "topic", Bytes.ofAscii "lamp"), (Bytes.ofAscii "type", Bytes.ofAscii "publish")]

/-- A frame with that publication. -/
def lampFrame : WebSocket.Frame :=
  .text none (JsonText.print 2 0 lampMessage)

/-- The socket of a client with one message. -/
def lampSocket : Socket where
  chunks := [lampFrame.encode]
  nonempty := by simp [WebSocket.Frame.encode, WebSocket.Frame.header]

/-- The first client sends that frame, and nobody else sends anything. -/
def lampSockets (id : Int) : Socket :=
  if id = 1 then lampSocket else ⟨[], by simp⟩

/-- What the clients have told the server. -/
def lampSaid (id : Int) : List Command :=
  if id = 1 then [.publish (Bytes.ofAscii "lamp") (Bytes.ofAscii "on")] else []

/-- The client's message is read between a subscription of the main thread and its packet. -/
def lampActs : List Act :=
  [.start 3 24, .event (.string (Bytes.ofAscii "door")), .read 1 ⟨∅, ∅⟩, .call (.client 1) 1 10,
    .call .handler 1 11, .ping 2]

theorem speaks_lamp (id : Int) :
  Speaks (JsonText.codec 2).parse (lampSockets id).bytes (lampSaid id)
  := by
  by_cases hid : id = 1
  · subst hid
    have htext : IsText (JsonText.codec 2).parse lampFrame lampMessage := by
      refine ⟨rfl, rfl, by decide +kernel, ?_⟩
      exact JsonText.codec_parse_print (by decide) (by decide +kernel) 2
    constructor
    · refine ⟨[lampFrame], rfl, .cons ⟨lampMessage, htext, ?_, rfl⟩ .nil, by decide +kernel⟩
      exact ⟨_, rfl, rfl, rfl, by decide⟩
    · decide
  · rw [lampSockets, if_neg hid, lampSaid, if_neg hid]
    exact ⟨⟨[], rfl, .nil, by simp⟩, by simp⟩

theorem commands_reach_broker_lamp :
  ∃ s sent, Lts.run (step (JsonText.codec 2).parse)
      (init (Bytes.ofAscii "nexus-core") lampSockets) lampActs = some s
    ∧ Told (Bytes.ofAscii "nexus-core") lampSaid lampActs s sent
  := by
  have hrun : ((Lts.run (step (JsonText.codec 2).parse)
      (init (Bytes.ofAscii "nexus-core") lampSockets) lampActs).map Outbound.started)
        = some true := by decide +kernel
  obtain ⟨s, hs, hstarted⟩ := Option.map_eq_some_iff.mp hrun
  obtain ⟨sent, htold⟩ := commands_reach_broker (by decide) speaks_lamp hs (by decide +kernel)
    (by decide) hstarted
  exact ⟨s, sent, hs, htold⟩

end Outbound

end NexusMainframe
