import NexusMainframe.Lib.Mqtt
import NexusMainframe.Event.EventBus

/-!
# The MQTT client

The MQTT client connects to a broker, sends the packets of `connect`, `subscribe`,
`publish` and of its ping thread, and hands what its receive thread reads to
`handlePacket`, which publishes the messages it finds on the event bus.

What the operating system answers is a parameter of a call: the results of `socket`,
`::connect`, `send` and `recv`. What a call does to the sockets and threads of the process
is its list of effects. Log lines are left out, the reads they make are not.
-/

namespace NexusMainframe

/-- The members of an `MQTTClient` that its calls read. `rxThread` and `pingThread` say
whether the threads are joinable. -/
structure MQTTClient where
  clientId : Bytes
  connected : Bool
  sock : Int
  rxThread : Bool
  pingThread : Bool
  running : Bool
deriving DecidableEq

namespace MQTTClient

/-- What a call does outside its client. -/
inductive Effect where
  | send (fd : Int) (packet : Bytes)
  | startReceiving (fd : Int)
  | startPinging (fd : Int)
  | joinReceiving
  | joinPinging
  | close (fd : Int)
deriving DecidableEq

/-- A client as it is constructed. -/
def init (clientId : Bytes) : MQTTClient where
  clientId := clientId
  connected := false
  sock := -1
  rxThread := false
  pingThread := false
  running := false

/-! ### Sending -/

/-- The low byte of a number. -/
def lowByte (n : Nat) : UInt8 :=
  UInt8.ofNat n

/-- `encodeString`: two bytes of length and the string. -/
def encodeString (s : Bytes) : Bytes :=
  lowByte ((s.length >>> 8) &&& 0xFF) :: lowByte (s.length &&& 0xFF) :: s

/-- The packets are a type byte, the size of the body cast to a byte, and the body. -/
def packet (type : UInt8) (body : Bytes) : Bytes :=
  type :: lowByte body.length :: body

/-- The packet that `connect` builds. -/
def connectPacket (clientId : Bytes) : Bytes :=
  packet 0x10
    ([0x00, 0x04] ++ Bytes.ofAscii "MQTT" ++ [0x04] ++ [0x02] ++ [0x00, 0x3C]
      ++ encodeString clientId)

/-- The packet that `subscribe` builds. -/
def subscribePacket (pid : UInt16) (topic : Bytes) : Bytes :=
  packet 0x82
    ([(pid >>> 8).toUInt8, (pid &&& 0xFF).toUInt8] ++ encodeString topic ++ [0x00])

/-- The packet that `publish` builds. -/
def publishPacket (topic payload : Bytes) : Bytes :=
  packet 0x30 (encodeString topic ++ payload)

/-- Hands a packet to `send`, which returns `sent`. -/
def sendPacket (c : MQTTClient) (packet : Bytes) (sent : Int) : Bool × List Effect :=
  (sent > 0, [.send c.sock packet])

/-- `connect`, where `socket` returns `sock`, `::connect` returns `status` and `send`
returns `sent`. There is no result when a thread is assigned to that is still joinable,
which ends the process. -/
def connect (c : MQTTClient) (sock status sent : Int) :
    Option Bool × MQTTClient × List Effect :=
  let c := { c with sock := sock }
  if sock < 0 then (some false, c, [])
  else if status < 0 then (some false, c, [])
  else
    let c := { c with connected := true }
    let (_, effects) := c.sendPacket (connectPacket c.clientId) sent
    let c := { c with running := true }
    if c.rxThread then (none, c, effects)
    else
      let c := { c with rxThread := true }
      let effects := effects ++ [.startReceiving c.sock]
      if c.pingThread then (none, c, effects)
      else
        let c := { c with pingThread := true }
        (some true, c, effects ++ [.startPinging c.sock])

/-- `isConnected`. -/
def isConnected (c : MQTTClient) : Bool :=
  c.connected

/-- `disconnect` joins the threads and closes the socket; no DISCONNECT is sent. -/
def disconnect (c : MQTTClient) : MQTTClient × List Effect :=
  let c := { c with running := false }
  let joined := (if c.rxThread then [.joinReceiving] else [])
    ++ (if c.pingThread then [.joinPinging] else [])
  let c := { c with rxThread := false, pingThread := false }
  ({ c with connected := false }, joined ++ [.close c.sock])

/-- `subscribe`, with the packet identifier in its static variable, which it counts up. -/
def subscribe (c : MQTTClient) (pid : UInt16) (topic : Bytes) (sent : Int) :
    Bool × UInt16 × List Effect :=
  let (result, effects) := c.sendPacket (subscribePacket pid topic) sent
  (result, pid + 1, effects)

/-- `publish`: with QoS 0 and without a packet identifier. -/
def publish (c : MQTTClient) (topic payload : Bytes) (sent : Int) : Bool × List Effect :=
  c.sendPacket (publishPacket topic payload) sent

/-- The packets among the effects of a call. -/
def packets (effects : List Effect) : List Bytes :=
  effects.filterMap fun
    | .send _ packet => some packet
    | _ => none

/-! ### Receiving -/

/-- What `handlePacket` does with a chunk: the indices `i` of the `data[i]` that it
evaluates, and the events that it publishes. -/
structure Handled where
  reads : List Nat
  events : List (Event EventData)

/-- The byte at an index. Past the end the code reads what it finds there, and only logs
it. -/
def byteAt (data : Bytes) (i : Nat) : Nat :=
  (data.getD i 0).toNat

/-- The length of the topic of a PUBLISH, taken from behind one byte of Remaining
Length. -/
def topicLen (data : Bytes) : Nat :=
  (byteAt data 2 <<< 8) ||| byteAt data 3

/-- The events of a message: one of its own name and one for all messages. -/
def messageEvents (topic payload : Bytes) : List (Event EventData) :=
  [⟨Bytes.ofAscii "mqtt:" ++ topic, .string payload⟩,
    ⟨Bytes.ofAscii "mqtt:message", .stringPair topic payload⟩]

/-- `handlePacket`; only a PUBLISH publishes something. -/
def handlePacket (data : Bytes) : Handled :=
  if data = [] then ⟨[], []⟩
  else
    let type := byteAt data 0 >>> 4
    -- the hex dump reads every byte
    let reads := 0 :: List.range data.length
    if type = 3 then
      let reads := reads ++ [1]
      let pos := 2
      if pos + 2 > data.length then ⟨reads, []⟩
      else
        let reads := reads ++ [pos, pos + 1]
        let pos := pos + 2
        if pos + topicLen data > data.length then ⟨reads, []⟩
        else
          let reads := reads ++ [pos]
          let topic := (data.drop pos).take (topicLen data)
          let pos := pos + topicLen data
          if pos < data.length then ⟨reads ++ [pos], messageEvents topic (data.drop pos)⟩
          else ⟨reads, messageEvents topic []⟩
    else ⟨reads, []⟩

/-- What a call of `recv` returns. -/
inductive Recv where
  | data (chunk : Bytes)
  | closed
  | again
  | error
deriving DecidableEq

/-- The receive loop, over what `recv` returns while the client is running: whether the
client is connected afterwards, and the chunks as they were handled. -/
def receiveLoop (connected : Bool) : List Recv → Bool × List Handled
  | [] => (connected, [])
  | .data chunk :: rest =>
      let (connected, handled) := receiveLoop connected rest
      (connected, handlePacket chunk :: handled)
  | .closed :: _ => (false, [])
  | .again :: rest => receiveLoop connected rest
  | .error :: _ => (connected, [])

end MQTTClient

end NexusMainframe
