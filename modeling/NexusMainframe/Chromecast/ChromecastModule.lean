import NexusMainframe.Chromecast.CastDevice
import NexusMainframe.Chromecast.ReceiveLoop
import NexusMainframe.Event.EventBus
import NexusMainframe.Lib.FiniteMap
import NexusMainframe.Lib.Search

/-!
# The Chromecast module

The module keeps a device for each host and port that a command has named, and executes the
commands one at a time, under its mutex. What a device reports in the meantime goes to the
event bus under the host of the device, and the two threads of its channel send heartbeats of
their own, before, between and after the messages of a command. What becomes of one device
depends on the commands for its host and port, on what its receiver says and on its clock, and
on nothing else that the module does.
-/

namespace NexusMainframe

namespace CastDevice

variable (env : Env)

/-! ### Messages to the receiver -/

/-- `RECEIVER_ID`, the platform that commands for the receiver go to. -/
def receiverId : Bytes :=
  Bytes.ofAscii "receiver-0"

/-- `NS_CONNECTION`. -/
def nsConnection : Bytes :=
  Bytes.ofAscii "urn:x-cast:com.google.cast.tp.connection"

/-- `APP_DMR`, the id of the default media receiver. -/
def appDmr : Bytes :=
  Bytes.ofAscii "CC1AD845"

instance decidableOpened (d : CastDevice) : Decidable (Opened d) :=
  inferInstanceAs (Decidable (_ ∨ _))

/-- The message that `sendReceiverMsg` puts on the channel. -/
def sendReceiverMsg (d : CastDevice) (payload : Json) : Option CastMessage :=
  if Opened d then
    some
      { sourceId := senderId
        destinationId := receiverId
        namespaceUri := nsReceiver
        payloadUtf8 := env.dump payload }
  else none

/-- The message of `sendConnect`. -/
def connectMessage (destId : Bytes) : CastMessage where
  sourceId := senderId
  destinationId := destId
  namespaceUri := nsConnection
  payloadUtf8 := Bytes.ofAscii
    "\x7b\"type\":\"CONNECT\",\"userAgent\":\"NexusChromecastModule/1.0\"\x7d"

/-- The message of `sendHeartbeat`. -/
def heartbeatMessage (destId : Bytes) : CastMessage where
  sourceId := senderId
  destinationId := destId
  namespaceUri := CastChannel.nsHeartbeat
  payloadUtf8 := Bytes.ofAscii "\x7b\"type\":\"PING\"\x7d"

/-- The member with the request id. -/
def requestIdMember (id : Int32) : Bytes × Json :=
  (Bytes.ofAscii "requestId", .integer id.toInt)

/-- The member with the type. -/
def typeMember (type : String) : Bytes × Json :=
  (Bytes.ofAscii "type", .string (Bytes.ofAscii type))

/-- The value that the text in `sendConnect` stands for. -/
def connectJson : Json :=
  .object [typeMember "CONNECT",
    (Bytes.ofAscii "userAgent", .string (Bytes.ofAscii "NexusChromecastModule/1.0"))]

/-- The value that the text of a heartbeat stands for. -/
def heartbeatJson (type : String) : Json :=
  .object [typeMember type]

/-- The payload of `requestStatus`. -/
def getStatusJson (id : Int32) : Json :=
  .object [requestIdMember id, typeMember "GET_STATUS"]

/-- The payload of `launchMediaReceiver`. -/
def launchJson (id : Int32) : Json :=
  .object [(Bytes.ofAscii "appId", .string appDmr), requestIdMember id, typeMember "LAUNCH"]

/-- The payload of `stopApp`. -/
def stopJson (sid : Bytes) (id : Int32) : Json :=
  .object [requestIdMember id, (Bytes.ofAscii "sessionId", .string sid), typeMember "STOP"]

/-- The message that sets the level of the volume, or mutes it. -/
def setVolumeJson (volume : Bytes × Json) (id : Int32) : Json :=
  .object [requestIdMember id, typeMember "SET_VOLUME",
    (Bytes.ofAscii "volume", .object [volume])]

/-- The payload of `loadMedia`. -/
def loadJson (url contentType title : Bytes) (id : Int32) : Json :=
  .object [
    (Bytes.ofAscii "autoplay", .boolean true),
    (Bytes.ofAscii "currentTime", .integer 0),
    (Bytes.ofAscii "media", .object [
      (Bytes.ofAscii "contentId", .string url),
      (Bytes.ofAscii "contentType", .string contentType),
      (Bytes.ofAscii "metadata", .object [
        (Bytes.ofAscii "metadataType", .integer 0),
        (Bytes.ofAscii "title", .string (if title = [] then url else title))]),
      (Bytes.ofAscii "streamType", .string (Bytes.ofAscii "BUFFERED"))]),
    requestIdMember id,
    typeMember "LOAD"]

end CastDevice

namespace ChromecastModule

open CastDevice

/-! ### What a device of the module does -/

/-- The commands of the module. -/
inductive Command where
  | connect
  | disconnect
  | getStatus
  | launchMediaReceiver
  | stopApp
  | media (command : CastDevice.Command)
  | setVolume (level : UInt64)
  | setMuted (muted : Bool)
  | loadMedia (url contentType title : Bytes)
deriving DecidableEq

/-- A command has read what it needs and is about to send; a device takes over a status of the
receiver, puts a message on its channel, with the payload as a value, or an event on the bus.
`undefined` is a null pointer that is dereferenced. -/
inductive Obs where
  | begun
  | took (status : ReceiverStatus)
  | sent (msg : CastMessage) (payload : Json)
  | published (event : Event EventData)
  | undefined

/-- What a command has still to send: a CONNECT to an app or to the receiver, or a message to
the receiver or to the app, whose transport is read when it is sent. -/
inductive Pending where
  | connect (destId : Bytes)
  | receiver (payload : Json)
  | media (payload : Json)

/-- The value that the text of the message stands for. -/
def Pending.payload : Pending → Json
  | .connect _ => connectJson
  | .receiver payload | .media payload => payload

/-- What comes of a message when it is its turn. The CONNECT goes through the pointer to the
channel unasked. -/
def Pending.send (env : Env) (d : CastDevice) : Pending → List Obs
  | .connect destId =>
      if d.channel = none then [.undefined]
      else if Opened d then [.sent (connectMessage destId) connectJson]
      else []
  | .receiver payload => ((d.sendReceiverMsg env payload).map fun msg => .sent msg payload).toList
  | .media payload => ((d.sendMediaMsg env payload).map fun msg => .sent msg payload).toList

/-- A device of the module, with what the command under way has still to send, and with what
the device has done. -/
structure Entry where
  host : Bytes
  port : Int32
  device : CastDevice := {}
  pending : List Pending := []
  log : List Obs := []

/-- The key of a device. -/
def key (host : Bytes) (port : Int32) : Bytes :=
  host ++ 0x3A :: JsonText.printInteger port.toInt

section

variable (env : Env)

/-- The event for a status of the receiver. -/
def statusEvent (host : Bytes) (s : ReceiverStatus) : Event EventData where
  name := Bytes.ofAscii "chromecast.status"
  data := .string (env.dump (.object [
    (Bytes.ofAscii "appId", .string s.appId),
    (Bytes.ofAscii "displayName", .string s.displayName),
    (Bytes.ofAscii "host", .string host),
    (Bytes.ofAscii "isIdleScreen", .boolean s.isIdleScreen),
    (Bytes.ofAscii "muted", .boolean s.muted),
    (Bytes.ofAscii "sessionId", .string s.sessionId),
    (Bytes.ofAscii "transportId", .string s.transportId),
    (Bytes.ofAscii "volume", .float s.volumeLevel)]))

/-- The event for a status of the media. -/
def mediaEvent (host : Bytes) (m : MediaStatus) : Event EventData where
  name := Bytes.ofAscii "chromecast.media"
  data := .string (env.dump (.object [
    (Bytes.ofAscii "contentId", .string m.contentId),
    (Bytes.ofAscii "contentType", .string m.contentType),
    (Bytes.ofAscii "currentTime", .float m.currentTime),
    (Bytes.ofAscii "duration", .float m.duration),
    (Bytes.ofAscii "host", .string host),
    (Bytes.ofAscii "mediaSessionId", .integer m.sessionId.toInt),
    (Bytes.ofAscii "playerState", .string m.playerState),
    (Bytes.ofAscii "title", .string m.title)]))

/-- The event for an error of the channel. -/
def errorEvent (host err : Bytes) : Event EventData where
  name := Bytes.ofAscii "chromecast.error"
  data := .string (env.dump (.object [
    (Bytes.ofAscii "error", .string err),
    (Bytes.ofAscii "host", .string host)]))

namespace Entry

/-- A command has read what it needs and is about to send. -/
def start (e : Entry) (pending : List Pending) : Entry :=
  { e with pending, log := e.log ++ [.begun] }

/-- A command that sends with the next request id. No other command takes one before it is
done, so that it does not matter when it is taken. -/
def begin (e : Entry) (pending : Int32 → List Pending) : Entry :=
  let id := e.device.requestId + 1
  { e with device := { e.device with requestId := id } }.start (pending id)

/-- A command that sends one message to the receiver. -/
def request (e : Entry) (payload : Int32 → Json) : Entry :=
  e.begin fun id => [.receiver (payload id)]

/-- `connect` of the device. -/
def connect (e : Entry) : Outcome → Entry
  | .failed => { e with device := e.device.connect .failed }
  | .refused => { e with device := e.device.connect .refused }.start [.connect receiverId]
  | .connected =>
      { e with device := e.device.connect .refused }.begin fun id =>
        [.connect receiverId, .receiver (getStatusJson id)]

/-- `loadMedia`, which puts a CONNECT to the app in front of the LOAD. -/
def loadMedia (e : Entry) (url contentType title : Bytes) : Entry :=
  if e.device.transportId = [] then e
  else
    e.begin fun id =>
      [.connect e.device.transportId, .media (loadJson url contentType title id)]

/-- A command up to its first message. `connected` is what `isConnected` returns, and `outcome`
how a `connect` ends. -/
def execute (e : Entry) (connected : Bool) (outcome : Outcome) : Command → Entry
  | .connect => if connected then e else e.connect outcome
  | .disconnect => { e with device := e.device.disconnect }
  | .getStatus => e.request getStatusJson
  | .launchMediaReceiver => e.request launchJson
  | .stopApp => if e.device.sessionId = [] then e else e.request (stopJson e.device.sessionId)
  | .media command =>
      match e.device.begin command with
      | none => e
      | some (call, device) => { e with device }.start [.media call.payload]
  | .setVolume level => e.request (setVolumeJson (Bytes.ofAscii "level", .float level))
  | .setMuted muted => e.request (setVolumeJson (Bytes.ofAscii "muted", .boolean muted))
  | .loadMedia url contentType title => e.loadMedia url contentType title

end Entry

/-- What a device makes of a message that its channel hands on. -/
def Entry.handed (e : Entry) (msg : CastMessage) : Option Entry :=
  match handleMessage env msg with
  | .undefined => none
  | .ignored => some e
  | .receiver status =>
      some { e with
        device := e.device.takeReceiverStatus status
        log := e.log ++ [.took status, .published (statusEvent env e.host status)] }
  | .media status =>
      some { e with
        device := e.device.takeMediaStatus status
        log := e.log ++ [.published (mediaEvent env e.host status)] }

/-- What comes of what the receive thread does: it sends the answer to a ping, or calls what the
device has set. -/
def Entry.take (e : Entry) : CastChannel.Event → Option Entry
  | .sent msg => some { e with log := e.log ++ [.sent msg (heartbeatJson "PONG")] }
  | .handed msg => e.handed env msg
  | .disconnected =>
      some { e with
        log := e.log ++ [.published (errorEvent env e.host
          (Bytes.ofAscii "Disconnected from " ++ e.host))] }
  | .terminated => none

/-- What happens to the device under one key. A command is `none` if nothing comes of it, or
if it throws, once there is a device. -/
inductive Entry.Act where
  | command (command : Option Command) (connected : Bool) (outcome : Outcome)
  | send
  | receive (msg : CastMessage)
  | heartbeat
  | lose
  | shutdown

/-- A step of the device for `host` and `port`. There is none at the beginning. -/
def Entry.step (host : Bytes) (port : Int32) : Option Entry → Entry.Act → Option (Option Entry)
  | e, .command command connected outcome =>
      let e := e.getD { host, port }
      if e.pending ≠ [] ∨ connected = true ∧ e.device.channel ≠ some .up then none
      else
        match command with
        | none => some (some e)
        | some command => some (some (e.execute connected outcome command))
  | some e, .send =>
      match e.pending with
      | [] => none
      | p :: pending => some (some { e with pending, log := e.log ++ p.send env e.device })
  | some e, .receive msg =>
      if e.device.channel = some .up then
        ((CastChannel.handle env.parse ⟨true, true⟩ msg).foldlM (Entry.take env) e).map some
      else none
  | some e, .heartbeat =>
      -- the thread may have found the channel up just before it was lost
      if Opened e.device then
        some (some { e with
          log := e.log ++ [.sent (heartbeatMessage receiverId) (heartbeatJson "PING")] })
      else none
  | some e, .lose =>
      if e.device.channel = some .up then
        (Entry.take env { e with device := { e.device with channel := some .lost } }
          .disconnected).map some
      else none
  | _, .shutdown => some none
  | none, .send | none, .receive _ | none, .heartbeat | none, .lose => none

end

end ChromecastModule

/-! ### The module -/

/-- The devices, and the key of the device whose command is under way, under the mutex. -/
structure ChromecastModule where
  devices : Finmap fun _ : Bytes => ChromecastModule.Entry
  busy : Option Bytes

namespace ChromecastModule

open CastDevice

/-- No device has been asked for. -/
def init : ChromecastModule where
  devices := ∅
  busy := none

/-- What `handleCommand` reads: a command for a device, or `none` when it is not known, lacks
the URL, or has a member of a wrong type. -/
structure Request where
  host : Bytes
  port : Int32
  command : Option Command
deriving DecidableEq

section

variable (env : Env)

/-- The part of `handleCommand` on the actions, each with the members that it reads. -/
def readCommand (cmd : Json) (action : Bytes) : Option Command :=
  if action = Bytes.ofAscii "connect" then some .connect
  else if action = Bytes.ofAscii "disconnect" then some .disconnect
  else if action = Bytes.ofAscii "getStatus" then some .getStatus
  else if action = Bytes.ofAscii "launchMediaReceiver" then some .launchMediaReceiver
  else if action = Bytes.ofAscii "stopApp" then some .stopApp
  else if action = Bytes.ofAscii "play" then some (.media .play)
  else if action = Bytes.ofAscii "pause" then some (.media .pause)
  else if action = Bytes.ofAscii "stopMedia" then some (.media .stopMedia)
  else if action = Bytes.ofAscii "seek" then
    (cmd.valueAs (Json.asDouble env.widen) (Bytes.ofAscii "seconds") 0).map fun seconds =>
      .media (.seek seconds)
  else if action = Bytes.ofAscii "setVolume" then
    (cmd.valueAs (Json.asDouble env.widen) (Bytes.ofAscii "level") 0x3FF0000000000000).map
      .setVolume
  else if action = Bytes.ofAscii "setMuted" then
    (cmd.valueAs Json.asBoolean (Bytes.ofAscii "muted") false).map .setMuted
  else if action = Bytes.ofAscii "loadMedia" then do
    let url ← cmd.valueAs Json.asString (Bytes.ofAscii "url") []
    if url = [] then none
    else
      let contentType ← cmd.valueAs Json.asString (Bytes.ofAscii "contentType")
        (Bytes.ofAscii "video/mp4")
      let title ← cmd.valueAs Json.asString (Bytes.ofAscii "title") []
      some (.loadMedia url contentType title)
  else none

/-- `handleCommand` up to the lookup of the device. -/
def readRequest : EventData → Option Request
  | .string payload => do
      let cmd ← env.parse payload
      let host ← cmd.valueAs Json.asString (Bytes.ofAscii "host") []
      let port ← cmd.valueAs (Json.asInt32 env.truncate) (Bytes.ofAscii "port") 8009
      let action ← cmd.valueAs Json.asString (Bytes.ofAscii "action") []
      if host = [] ∨ action = [] then none
      else some ⟨host, port, readCommand env cmd action⟩
  | .empty => none
  | .stringPair _ _ => none

/-- What happens to the module: a command is begun, or sends its next message; a device receives a
message, sends a heartbeat or loses its connection; or the module is shut down. -/
inductive Act where
  | command (data : EventData) (connected : Bool) (outcome : Outcome)
  | send (key : Bytes)
  | receive (key : Bytes) (msg : CastMessage)
  | heartbeat (key : Bytes)
  | lose (key : Bytes)
  | shutdown

/-- The key of a device, while it has a command under way. -/
def Entry.holder (e : Entry) (key : Bytes) : Option Bytes :=
  if e.pending = [] then none else some key

/-- A step of the device under a key that is there. -/
def update (s : ChromecastModule) (key : Bytes) (a : Entry.Act) : Option ChromecastModule :=
  match s.devices.lookup key with
  | none => none
  | some e =>
      match Entry.step env e.host e.port (some e) a with
      | some (some e) => some { s with devices := s.devices.insert key e }
      | _ => none

/-- The module takes one command after the other; the threads of the devices go on meanwhile. -/
def step (s : ChromecastModule) : Act → Option ChromecastModule
  | .command data connected outcome =>
      if s.busy.isSome then none
      else
        match readRequest env data with
        | none => some s
        | some q =>
            match Entry.step env q.host q.port (s.devices.lookup (key q.host q.port))
              (.command q.command connected outcome) with
            | some (some e) =>
                some
                  { devices := s.devices.insert (key q.host q.port) e
                    busy := e.holder (key q.host q.port) }
            | _ => none
  | .send key =>
      if s.busy = some key then
        (update env s key .send).map fun s =>
          { s with busy := (s.devices.lookup key).bind fun e => e.holder key }
      else none
  | .receive key msg => update env s key (.receive msg)
  | .heartbeat key => update env s key .heartbeat
  | .lose key => update env s key .lose
  | .shutdown => if s.busy.isSome then none else some init

/-- What an action is for the device of a host and a port. -/
def concerns (host : Bytes) (port : Int32) : Act → Option Entry.Act
  | .command data connected outcome =>
      match readRequest env data with
      | none => none
      | some q =>
          if q.host = host ∧ q.port = port then some (.command q.command connected outcome)
          else none
  | .send k => if k = key host port then some .send else none
  | .receive k msg => if k = key host port then some (.receive msg) else none
  | .heartbeat k => if k = key host port then some .heartbeat else none
  | .lose k => if k = key host port then some .lose else none
  | .shutdown => some .shutdown

end

/-! ### Keys -/

theorem printInteger_inj {m n : Int} (h : JsonText.printInteger m = JsonText.printInteger n) :
  m = n
  := by
  have hsign : ∀ (k : Nat) (bs : Bytes), Bytes.decimal k ≠ 0x2D :: bs := by
    intro k bs heq
    have hdigit := Bytes.decimal_digit k 0x2D (by rw [heq]; exact List.mem_cons_self)
    exact absurd hdigit.1 (by decide)
  have habs : ∀ {k l : Nat}, Bytes.decimal k = Bytes.decimal l → k = l := by
    intro k l heq
    rw [← Bytes.ofDecimal_decimal k, heq, Bytes.ofDecimal_decimal]
  unfold JsonText.printInteger at h
  split at h
  next hm =>
    split at h
    next hn =>
      have := habs (List.cons.inj h).2
      omega
    next => cases hsign _ _ h.symm
  next hm =>
    split at h
    next => cases hsign _ _ h
    next hn =>
      have := habs h
      omega

theorem colon_notMem_printInteger (n : Int) :
  0x3A ∉ JsonText.printInteger n
  := by
  have hdigits : 0x3A ∉ Bytes.decimal n.natAbs := by
    intro hmem
    exact absurd (Bytes.decimal_digit _ _ hmem).2 (by decide)
  unfold JsonText.printInteger
  split
  next => simpa using hdigits
  next => exact hdigits

/-- The port stands behind the last colon, whatever the host is. -/
theorem key_inj {host host' : Bytes} {port port' : Int32} :
  key host port = key host' port' ↔ host = host' ∧ port = port'
  := by
  constructor
  · intro h
    have hsplit : ∀ (host : Bytes) (port : Int32), (key host port).reverse
        = (JsonText.printInteger port.toInt).reverse ++ 0x3A :: host.reverse := by
      intro host port
      simp [key]
    have hreverse := congrArg List.reverse h
    rw [hsplit, hsplit] at hreverse
    have hport : (JsonText.printInteger port.toInt).reverse
        = (JsonText.printInteger port'.toInt).reverse := by
      have htake := congrArg (List.takeWhile (· ≠ 0x3A)) hreverse
      rwa [Bytes.takeWhile_append_cons, Bytes.takeWhile_append_cons] at htake
      · simpa using colon_notMem_printInteger port'.toInt
      · simpa using colon_notMem_printInteger port.toInt
    rw [hport, List.append_cancel_left_eq, List.cons_inj_right, List.reverse_inj] at hreverse
    use hreverse
    apply Int32.toInt_inj.mp
    exact printInteger_inj (List.reverse_inj.mp hport)
  · rintro ⟨rfl, rfl⟩
    rfl

/-! ### What one step does -/

section

variable {env : Env} {host : Bytes} {port : Int32}

/-- The steps of a device that is there afterwards; one that is new has done nothing before. -/
inductive Entry.Step (env : Env) : Entry → Entry.Act → Entry → Prop where
  | nothing {e} (connected : Bool) (outcome : Outcome) (free : e.pending = []) :
      Step env e (.command none connected outcome) e
  | execute {e} (command : Command) (connected : Bool) (outcome : Outcome)
      (free : e.pending = []) :
      Step env e (.command (some command) connected outcome)
        (e.execute connected outcome command)
  | send {e} (p : Pending) (pending : List Pending) (h : e.pending = p :: pending) :
      Step env e .send { e with pending, log := e.log ++ p.send env e.device }
  | pong {e} (msg : CastMessage) (up : e.device.channel = some .up) :
      Step env e (.receive msg) { e with
        log := e.log ++ [.sent (CastChannel.pong msg) (heartbeatJson "PONG")] }
  | heartbeat {e} (opened : Opened e.device) :
      Step env e .heartbeat { e with
        log := e.log ++ [.sent (heartbeatMessage receiverId) (heartbeatJson "PING")] }
  | ignored {e} (msg : CastMessage) : Step env e (.receive msg) e
  | receiver {e} (msg : CastMessage) (status : ReceiverStatus)
      (up : e.device.channel = some .up) :
      Step env e (.receive msg) { e with
        device := e.device.takeReceiverStatus status
        log := e.log ++ [.took status, .published (statusEvent env e.host status)] }
  | media {e} (msg : CastMessage) (status : MediaStatus) (up : e.device.channel = some .up) :
      Step env e (.receive msg) { e with
        device := e.device.takeMediaStatus status
        log := e.log ++ [.published (mediaEvent env e.host status)] }
  | lose {e} (up : e.device.channel = some .up) :
      Step env e .lose { e with
        device := { e.device with channel := some .lost }
        log := e.log ++ [.published (errorEvent env e.host
          (Bytes.ofAscii "Disconnected from " ++ e.host))] }

/-- What `Entry.step` does to a device is one of the steps. -/
theorem Entry.Step.of_step
    {o : Option Entry} {a : Entry.Act} {u : Entry}
    (h : Entry.step env host port o a = some (some u)) :
  Entry.Step env (o.getD { host, port }) a u
  := by
  cases a with
  | command command connected outcome =>
      simp only [Entry.step] at h
      split at h
      next => cases h
      next hfree =>
        have hfree : (o.getD { host, port }).pending = [] := by
          by_contra hne
          exact hfree (.inl hne)
        cases command with
        | none =>
            obtain rfl := Option.some.inj (Option.some.inj h)
            exact .nothing connected outcome hfree
        | some command =>
            obtain rfl := Option.some.inj (Option.some.inj h)
            exact .execute command connected outcome hfree
  | shutdown =>
      cases o with
      | none => cases h
      | some e => cases h
  | send =>
      cases o with
      | none => cases h
      | some e =>
          simp only [Entry.step] at h
          split at h
          next => cases h
          next p pending hpending =>
            obtain rfl := Option.some.inj (Option.some.inj h)
            exact .send p pending hpending
  | receive msg =>
      cases o with
      | none => cases h
      | some e =>
          simp only [Entry.step, Option.ite_none_right_eq_some] at h
          obtain ⟨hup, h⟩ := h
          obtain ⟨event, hevent, hanswers⟩ := CastChannel.handle_answers env.parse msg
          rw [hevent, List.foldlM_cons] at h
          obtain ⟨u', hu', hu⟩ := Option.map_eq_some_iff.mp h
          obtain rfl := Option.some.inj hu
          simp only [List.foldlM_nil, bind_pure] at hu'
          cases hanswers with
          | ping =>
              obtain rfl := Option.some.inj hu'
              exact .pong msg hup
          | other =>
              simp only [Entry.take, Entry.handed] at hu'
              split at hu'
              next => cases hu'
              next =>
                obtain rfl := Option.some.inj hu'
                exact .ignored msg
              next status _ =>
                obtain rfl := Option.some.inj hu'
                exact .receiver msg status hup
              next status _ =>
                obtain rfl := Option.some.inj hu'
                exact .media msg status hup
  | heartbeat =>
      cases o with
      | none => cases h
      | some e =>
          simp only [Entry.step, Option.ite_none_right_eq_some] at h
          obtain ⟨hopened, h⟩ := h
          obtain rfl := Option.some.inj (Option.some.inj h)
          exact .heartbeat hopened
  | lose =>
      cases o with
      | none => cases h
      | some e =>
          simp only [Entry.step, Option.ite_none_right_eq_some] at h
          obtain ⟨hup, h⟩ := h
          obtain rfl := Option.some.inj (Option.some.inj h)
          exact .lose hup

/-- A command keeps the host and the port of its device. -/
theorem Entry.execute_address
    (e : Entry) (connected : Bool) (outcome : Outcome) (command : Command) :
  (e.execute connected outcome command).host = e.host
    ∧ (e.execute connected outcome command).port = e.port
  := by
  cases command with
  | connect =>
      rw [Entry.execute]
      split
      next => exact ⟨rfl, rfl⟩
      next => cases outcome <;> exact ⟨rfl, rfl⟩
  | disconnect | getStatus | launchMediaReceiver | setVolume | setMuted => exact ⟨rfl, rfl⟩
  | stopApp =>
      rw [Entry.execute]
      split <;> exact ⟨rfl, rfl⟩
  | media command =>
      rw [Entry.execute]
      split <;> exact ⟨rfl, rfl⟩
  | loadMedia url contentType title =>
      rw [Entry.execute, Entry.loadMedia]
      split <;> exact ⟨rfl, rfl⟩

theorem Entry.Step.address {e u : Entry} {a : Entry.Act} (h : Entry.Step env e a u) :
  u.host = e.host ∧ u.port = e.port
  := by
  cases h with
  | execute command connected outcome => exact e.execute_address connected outcome command
  | nothing | send | pong | heartbeat | ignored | receiver | media | lose => exact ⟨rfl, rfl⟩

/-- What a command has still to send changes only when a command begins or sends. -/
theorem Entry.Step.pending_of_ne
    {e u : Entry} {a : Entry.Act} (h : Entry.Step env e a u)
    (hcommand : ∀ command connected outcome, a ≠ .command command connected outcome)
    (hsend : a ≠ .send) :
  u.pending = e.pending
  := by
  cases h with
  | nothing | execute => exact absurd rfl (hcommand _ _ _)
  | send => exact absurd rfl hsend
  | pong | heartbeat | ignored | receiver | media | lose => rfl

/-! ### The devices -/

/-- Every device stands under its key, and the mutex is held just when the command of a device
is under way. -/
structure Keyed (s : ChromecastModule) : Prop where
  key : ∀ k e, s.devices.lookup k = some e → k = key e.host e.port
  busy : ∀ k e, s.devices.lookup k = some e → (e.pending ≠ [] ↔ s.busy = some k)
  present : ∀ k, s.busy = some k → ∃ e, s.devices.lookup k = some e

theorem Keyed.init :
  Keyed init
  where
  key k e h := by simp [ChromecastModule.init] at h
  busy k e h := by simp [ChromecastModule.init] at h
  present k h := by cases h

variable {s t : ChromecastModule}

theorem Entry.pending_iff_holder (e : Entry) (k : Bytes) :
  e.pending ≠ [] ↔ e.holder k = some k
  := by
  simp [Entry.holder]

theorem Entry.holder_ne (e : Entry) {k k' : Bytes} (hne : k' ≠ k) :
  e.holder k ≠ some k'
  := by
  simp [Entry.holder, hne.symm]

/-- A device that keeps its address, and is busy when the module is with it. -/
theorem Keyed.insert
    (h : Keyed s) {e : Entry} {busy : Option Bytes} {k : Bytes}
    (hk : k = ChromecastModule.key e.host e.port) (hbusy : e.pending ≠ [] ↔ busy = some k)
    (hothers : ∀ k' ≠ k, busy = some k' ↔ s.busy = some k') :
  Keyed { devices := s.devices.insert k e, busy := busy }
  where
  key k' e' h' := by
    rcases FiniteMap.lookup_insert_eq_some.mp h' with ⟨rfl, rfl⟩ | ⟨-, h'⟩
    · exact hk
    · exact h.key k' e' h'
  busy k' e' h' := by
    rcases FiniteMap.lookup_insert_eq_some.mp h' with ⟨rfl, rfl⟩ | ⟨hne, h'⟩
    · exact hbusy
    · rw [h.busy k' e' h', hothers k' hne]
  present k' hk' := by
    by_cases heq : k' = k
    · use e
      rw [FiniteMap.lookup_insert, if_pos heq]
    · obtain ⟨e', he'⟩ := h.present k' ((hothers k' heq).mp hk')
      use e'
      rw [FiniteMap.lookup_insert, if_neg heq, he']

/-- What a step under a key that is there does. -/
theorem update_eq_some {k : Bytes} {a : Entry.Act} (h : update env s k a = some t) :
  ∃ e u, s.devices.lookup k = some e ∧ Entry.step env e.host e.port (some e) a = some (some u)
    ∧ t = { s with devices := s.devices.insert k u }
  := by
  unfold update at h
  split at h
  next => cases h
  next e he =>
    split at h
    next u hu =>
      obtain rfl := Option.some.inj h
      exact ⟨e, u, he, hu, rfl⟩
    next => cases h

/-- A device keeps its address in a step under its key. -/
theorem Keyed.update
    (h : Keyed s) {k : Bytes} {a : Entry.Act} (hstep : update env s k a = some t) :
  ∃ e u, s.devices.lookup k = some e ∧ Entry.Step env e a u
    ∧ k = ChromecastModule.key u.host u.port ∧ t = { s with devices := s.devices.insert k u }
  := by
  obtain ⟨e, u, he, hu, ht⟩ := update_eq_some hstep
  have hentry : Entry.Step env e a u := Entry.Step.of_step hu
  obtain ⟨hhost, hport⟩ := hentry.address
  refine ⟨e, u, he, hentry, ?_, ht⟩
  rw [hhost, hport]
  exact h.key k e he

/-- The device for a command is there with its address, or is new. -/
theorem Keyed.address_of_lookup
    (h : Keyed s) {e : Entry} (he : s.devices.lookup (ChromecastModule.key host port) = some e) :
  e.host = host ∧ e.port = port
  := by
  have hkey := h.key _ e he
  obtain ⟨hhost, hport⟩ := key_inj.mp hkey
  exact ⟨hhost.symm, hport.symm⟩

/-- A step that begins a command. -/
theorem step_command
    {data : EventData} {connected : Bool} {outcome : Outcome}
    (h : step env s (.command data connected outcome) = some t) :
  s.busy = none ∧ (readRequest env data = none ∧ t = s ∨
    ∃ q e, readRequest env data = some q
      ∧ Entry.step env q.host q.port (s.devices.lookup (key q.host q.port))
          (.command q.command connected outcome) = some (some e)
      ∧ t = { devices := s.devices.insert (key q.host q.port) e
              busy := e.holder (key q.host q.port) })
  := by
  simp only [step] at h
  split at h
  next => cases h
  next hbusy =>
    use Option.not_isSome_iff_eq_none.mp hbusy
    split at h
    next hread =>
      left
      exact ⟨hread, (Option.some.inj h).symm⟩
    next q hread =>
      right
      split at h
      next e he => exact ⟨q, e, hread, he, (Option.some.inj h).symm⟩
      next => cases h

theorem Keyed.step (h : Keyed s) {a : Act} (hstep : step env s a = some t) :
  Keyed t
  := by
  cases a with
  | command data connected outcome =>
      obtain ⟨hbusy, ⟨-, rfl⟩ | ⟨q, e, -, he, rfl⟩⟩ := step_command hstep
      · exact h
      · have haddress : ((s.devices.lookup (ChromecastModule.key q.host q.port)).getD
            { host := q.host, port := q.port }).host = q.host
            ∧ ((s.devices.lookup (ChromecastModule.key q.host q.port)).getD
              { host := q.host, port := q.port }).port = q.port := by
          cases hlookup : s.devices.lookup (ChromecastModule.key q.host q.port) with
          | none => exact ⟨rfl, rfl⟩
          | some e' => exact h.address_of_lookup hlookup
        obtain ⟨hhost, hport⟩ := (Entry.Step.of_step he).address
        apply h.insert
        · rw [hhost, hport, haddress.1, haddress.2]
        · exact e.pending_iff_holder _
        · intro k' hne
          simp [hbusy, e.holder_ne hne]
  | send k =>
      simp only [ChromecastModule.step] at hstep
      split at hstep
      next hbusy =>
        obtain ⟨t', ht', rfl⟩ := Option.map_eq_some_iff.mp hstep
        obtain ⟨e, u, -, -, hkey, rfl⟩ := h.update ht'
        rw [FiniteMap.lookup_insert, if_pos rfl, Option.bind_some]
        apply h.insert hkey
        · exact u.pending_iff_holder k
        · intro k' hne
          simp [hbusy, u.holder_ne hne, hne.symm]
      next => cases hstep
  | receive k msg =>
      obtain ⟨e, u, he, hentry, hkey, rfl⟩ := h.update hstep
      apply h.insert hkey
      · rw [hentry.pending_of_ne nofun nofun, h.busy k e he]
      · simp
  | heartbeat k | lose k =>
      obtain ⟨e, u, he, hentry, hkey, rfl⟩ := h.update hstep
      apply h.insert hkey
      · rw [hentry.pending_of_ne nofun nofun, h.busy k e he]
      · simp
  | shutdown =>
      simp only [ChromecastModule.step] at hstep
      split at hstep
      next => cases hstep
      next =>
        obtain rfl := Option.some.inj hstep
        exact Keyed.init

/-! ### One device -/

/-- A step under the key of a device is a step of the device. -/
theorem Keyed.own_update
    (h : Keyed s) {a : Entry.Act}
    (hstep : ChromecastModule.update env s (ChromecastModule.key host port) a = some t) :
  Entry.step env host port (s.devices.lookup (ChromecastModule.key host port)) a
    = some (t.devices.lookup (ChromecastModule.key host port))
  := by
  obtain ⟨e, u, he, hu, rfl⟩ := update_eq_some hstep
  obtain ⟨rfl, rfl⟩ := h.address_of_lookup he
  rw [he, hu, FiniteMap.lookup_insert, if_pos rfl]

theorem other_update
    {k k' : Bytes} {a : Entry.Act} (hne : k ≠ k') (hstep : update env s k a = some t) :
  t.devices.lookup k' = s.devices.lookup k'
  := by
  obtain ⟨e, u, -, -, rfl⟩ := update_eq_some hstep
  rw [FiniteMap.lookup_insert, if_neg (Ne.symm hne)]

/-- What concerns a device is a step of the device. -/
theorem Keyed.own_step
    (h : Keyed s) {a : Act} {b : Entry.Act} (hstep : ChromecastModule.step env s a = some t)
    (hlabel : concerns env host port a = some b) :
  Entry.step env host port (s.devices.lookup (ChromecastModule.key host port)) b
    = some (t.devices.lookup (ChromecastModule.key host port))
  := by
  cases a with
  | command data connected outcome =>
      obtain ⟨-, ⟨hread, -⟩ | ⟨q, e, hread, he, rfl⟩⟩ := step_command hstep
      · simp [concerns, hread] at hlabel
      · simp only [concerns, hread, Option.ite_none_right_eq_some, Option.some.injEq] at hlabel
        obtain ⟨⟨rfl, rfl⟩, rfl⟩ := hlabel
        rw [he, FiniteMap.lookup_insert, if_pos rfl]
  | send k =>
      simp only [concerns, Option.ite_none_right_eq_some, Option.some.injEq] at hlabel
      obtain ⟨rfl, rfl⟩ := hlabel
      simp only [ChromecastModule.step, Option.ite_none_right_eq_some,
        Option.map_eq_some_iff] at hstep
      obtain ⟨-, t', ht', rfl⟩ := hstep
      have hown := h.own_update ht'
      exact hown
  | receive k msg =>
      simp only [concerns, Option.ite_none_right_eq_some, Option.some.injEq] at hlabel
      obtain ⟨rfl, rfl⟩ := hlabel
      exact h.own_update hstep
  | heartbeat k | lose k =>
      simp only [concerns, Option.ite_none_right_eq_some, Option.some.injEq] at hlabel
      obtain ⟨rfl, rfl⟩ := hlabel
      exact h.own_update hstep
  | shutdown =>
      obtain rfl := Option.some.inj hlabel
      simp only [ChromecastModule.step, Option.ite_none_left_eq_some, Option.some.injEq] at hstep
      obtain ⟨-, rfl⟩ := hstep
      cases s.devices.lookup (ChromecastModule.key host port) <;> rfl

/-- What does not concern a device leaves it alone. -/
theorem other_step
    {a : Act} (hstep : step env s a = some t) (hlabel : concerns env host port a = none) :
  t.devices.lookup (key host port) = s.devices.lookup (key host port)
  := by
  cases a with
  | command data connected outcome =>
      obtain ⟨-, ⟨-, rfl⟩ | ⟨q, e, hread, he, rfl⟩⟩ := step_command hstep
      · rfl
      · simp only [concerns, hread, ite_eq_right_iff, reduceCtorEq, imp_false] at hlabel
        rw [FiniteMap.lookup_insert, if_neg]
        intro heq
        obtain ⟨hhost, hport⟩ := key_inj.mp heq
        exact hlabel ⟨hhost.symm, hport.symm⟩
  | send k =>
      simp only [concerns, ite_eq_right_iff, reduceCtorEq, imp_false] at hlabel
      simp only [step, Option.ite_none_right_eq_some, Option.map_eq_some_iff] at hstep
      obtain ⟨-, t', ht', rfl⟩ := hstep
      have hother := other_update hlabel ht'
      exact hother
  | receive k msg =>
      simp only [concerns, ite_eq_right_iff, reduceCtorEq, imp_false] at hlabel
      exact other_update hlabel hstep
  | heartbeat k | lose k =>
      simp only [concerns, ite_eq_right_iff, reduceCtorEq, imp_false] at hlabel
      exact other_update hlabel hstep
  | shutdown => cases hlabel

/-- Whatever the module does, in any order, with any number of devices: the device of a host
and a port, what it has put on its channel and what it has published, is what becomes of it
when just what concerns it happens to it, alone. -/
theorem device_alone
    {acts : List Act} (h : Lts.run (step env) init acts = some s) (host : Bytes) (port : Int32) :
  Lts.run (Entry.step env host port) none (acts.filterMap (concerns env host port))
    = some (s.devices.lookup (key host port))
  := by
  have hrun : Lts.run (Entry.step env host port) (init.devices.lookup (key host port)) _ = _ :=
    Lts.run_view (fun s => s.devices.lookup (key host port)) (concerns env host port)
      (I := Keyed) Keyed.init (fun t a u ht hu => ht.step hu)
      (fun t a b u ht hu hb => ht.own_step hu hb) (fun t a u _ hu ha => other_step hu ha) h
  simpa [init] using hrun

/-! ### A television and a box -/

/-- The data of a command. -/
def commandData (host action : String) : EventData :=
  .string (JsonText.print 2 0 (.object [
    (Bytes.ofAscii "action", .string (Bytes.ofAscii action)),
    (Bytes.ofAscii "host", .string (Bytes.ofAscii host)),
    (Bytes.ofAscii "url", .string (Bytes.ofAscii "movie"))]))

/-- The key of a television. -/
def tv : Bytes :=
  key (Bytes.ofAscii "tv") 8009

/-- The key of a box. -/
def box : Bytes :=
  key (Bytes.ofAscii "box") 8009

/-- What a receiver sends to see whether the sender is there. -/
def receiverPing : CastMessage where
  sourceId := receiverId
  destinationId := senderId
  namespaceUri := CastChannel.nsHeartbeat
  payloadUtf8 := JsonText.print 2 0 (heartbeatJson "PING")

/-- Both are connected, and a movie is loaded on the television; the television pings and is
pinged, and the box loses its connection, in the middle of that. -/
def loading : List Act :=
  [.command (commandData "tv" "connect") false .connected, .send tv, .send tv,
    .command (commandData "box" "connect") false .connected, .send box, .send box,
    .receive tv (message nsReceiver (receiverJson web1)),
    .command (commandData "tv" "loadMedia") true .failed,
    .receive tv receiverPing,
    .send tv,
    .heartbeat tv,
    .lose box,
    .send tv]

theorem exists_run_loading :
  ∃ s, Lts.run (step session) init loading = some s
  := by
  apply Option.isSome_iff_exists.mp
  decide +kernel

theorem device_alone_loading :
  ∃ s, Lts.run (step session) init loading = some s
    ∧ Lts.run (Entry.step session (Bytes.ofAscii "tv") 8009) none
        (loading.filterMap (concerns session (Bytes.ofAscii "tv") 8009))
      = some (s.devices.lookup tv)
  := by
  obtain ⟨s, hs⟩ := exists_run_loading
  exact ⟨s, hs, device_alone hs (Bytes.ofAscii "tv") 8009⟩

end

end ChromecastModule

end NexusMainframe
