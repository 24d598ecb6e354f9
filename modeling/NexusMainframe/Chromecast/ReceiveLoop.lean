import NexusMainframe.Chromecast.CastChannel
import NexusMainframe.Lib.JsonCodec

/-!
# The receiving thread of a cast channel

The thread reads one message after the other, answers the pings among the heartbeats, and
hands every other message to the callback, in particular the heartbeats whose payload is not
what it expects. What parsing throws is caught before the message is handed on. Without a
disconnect from another thread it stops at the end of the stream, and reports that once.
-/

namespace NexusMainframe

namespace CastChannel

open Stream CastProto

/-! ### The thread -/

/-- `NS_HEARTBEAT`. -/
def nsHeartbeat : Bytes :=
  Bytes.ofAscii "urn:x-cast:com.google.cast.tp.heartbeat"

/-- Which callbacks are there. -/
structure Callbacks where
  message : Bool
  disconnect : Bool

/-- What the thread does: it sends a message, it calls one of the callbacks, or an exception
leaves it. -/
inductive Event where
  | sent (msg : CastMessage)
  | handed (msg : CastMessage)
  | disconnected
  | terminated

/-- The answer to a ping. -/
def pong (msg : CastMessage) : CastMessage where
  sourceId := msg.destinationId
  destinationId := msg.sourceId
  namespaceUri := nsHeartbeat
  payloadUtf8 := Bytes.ofAscii "\x7b\"type\":\"PONG\"\x7d"

section Thread

variable (parse : Bytes → Option Json) (callbacks : Callbacks)

/-- The comparison in the `try` block, which throws when the payload is not JSON, not an object,
or has a `type` that is no string. -/
def asksPong (payload : Bytes) : Option Bool :=
  (parse payload).bind fun j =>
    (j.valueAs Json.asString (Bytes.ofAscii "type") []).map fun type =>
      type = Bytes.ofAscii "PING"

/-- What is done with a message that has been read. -/
def handle (msg : CastMessage) : List Event :=
  if msg.namespaceUri = nsHeartbeat ∧ asksPong parse msg.payloadUtf8 = some true then
    [.sent (pong msg)]
  else if callbacks.message then [.handed msg]
  else []

/-- A message that is read is taken off the stream. -/
theorem length_of_delivered
    {s t : Socket} {msg : CastMessage} (h : readMessage s = .delivered msg t) :
  t.bytes.length < s.bytes.length
  := by
  unfold readMessage at h
  split at h
  next => cases h
  next hdr u hheader =>
    obtain ⟨hhdr, hu⟩ := TlsSocket.receives.fill_length hheader
    have hlen := congrArg List.length hu
    rw [List.length_append, hhdr] at hlen
    dsimp only at h
    split at h
    next => cases h
    next =>
      split at h
      next => cases h
      next body v hbody =>
        have hlen' := congrArg List.length (TlsSocket.receives.fill_length hbody).2
        rw [List.length_append] at hlen'
        split at h
        next => cases h
        next => cases h
        next =>
          obtain ⟨-, rfl⟩ := MessageRead.delivered.inj h
          omega

/-- The loop of the thread, where `running` are the values that it finds in the flag, from
the `k`-th on. -/
def receiveLoop (running : Nat → Bool) (k : Nat) (s : Socket) : List Event :=
  if running k then
    match _h : readMessage s with
    | .failed => if running (k + 1) && callbacks.disconnect then [.disconnected] else []
    | .threw => [.terminated]
    | .delivered msg t => handle parse callbacks msg ++ receiveLoop running (k + 1) t
  else []
termination_by s.bytes.length
decreasing_by exact length_of_delivered _h

end Thread

/-! ### What it answers -/

section Answers

variable (parse : Bytes → Option Json)

/-- A heartbeat whose payload is an object with the type `PING`. -/
def IsPing (msg : CastMessage) : Prop :=
  msg.namespaceUri = nsHeartbeat ∧
    ∃ members, parse msg.payloadUtf8 = some (.object members) ∧
      members.lookup (Bytes.ofAscii "type") = some (.string (Bytes.ofAscii "PING"))

/-- What is to be done with a message. -/
inductive Answers : CastMessage → Event → Prop where
  | ping {msg : CastMessage} (h : IsPing parse msg) : Answers msg (.sent (pong msg))
  | other {msg : CastMessage} (h : ¬ IsPing parse msg) : Answers msg (.handed msg)

/-- The access to the type gives `PING` only on an object that has it. -/
theorem valueAs_type_ping {j : Json} :
  j.valueAs Json.asString (Bytes.ofAscii "type") [] = some (Bytes.ofAscii "PING") ↔
    ∃ members, j = .object members ∧
      members.lookup (Bytes.ofAscii "type") = some (.string (Bytes.ofAscii "PING"))
  := by
  cases j with
  | object members =>
      simp only [Json.valueAs, Json.object.injEq, exists_eq_left']
      cases members.lookup (Bytes.ofAscii "type") with
      | none => simp [Bytes.ofAscii]
      | some j => cases j <;> simp [Json.asString]
  | _ => simp [Json.valueAs]

theorem asksPong_eq_true {payload : Bytes} :
  asksPong parse payload = some true ↔
    ∃ members, parse payload = some (.object members) ∧
      members.lookup (Bytes.ofAscii "type") = some (.string (Bytes.ofAscii "PING"))
  := by
  unfold asksPong
  cases parse payload with
  | none => simp
  | some j =>
      rw [Option.bind_some, Option.map_eq_some_iff]
      simp only [decide_eq_true_eq, exists_eq_right, valueAs_type_ping, Option.some.injEq]

/-- Where both callbacks are there, a message comes to the one thing that is to be done. -/
theorem handle_answers (msg : CastMessage) :
  ∃ event, handle parse ⟨true, true⟩ msg = [event] ∧ Answers parse msg event
  := by
  unfold handle
  split_ifs with hping hmessage
  · use .sent (pong msg), rfl
    apply Answers.ping
    exact ⟨hping.1, (asksPong_eq_true parse).mp hping.2⟩
  · use .handed msg, rfl
    apply Answers.other
    intro h
    exact hping ⟨h.1, (asksPong_eq_true parse).mpr h.2⟩
  · cases hmessage rfl

/-- The messages are answered one after the other. -/
theorem flatMap_handle_answers (msgs : List CastMessage) :
  List.Forall₂ (Answers parse) msgs (msgs.flatMap (handle parse ⟨true, true⟩))
  := by
  induction msgs with
  | nil => exact .nil
  | cons msg msgs ih =>
      obtain ⟨event, hevent, hanswers⟩ := handle_answers parse msg
      rw [List.flatMap_cons, hevent]
      exact .cons hanswers ih

end Answers

/-! ### A run to the end of the stream -/

section Run

variable (parse : Bytes → Option Json) (callbacks : Callbacks) {running : Nat → Bool}

/-- While the flag is set, the messages that are read are handled one after the other. -/
theorem receiveLoop_of_readMessages
    {n k : Nat} {s t : Socket} {msgs : List CastMessage}
    (hreads : readMessages n s = some (msgs, t)) (hrunning : ∀ i, running i = true) :
  receiveLoop parse callbacks running k s
    = msgs.flatMap (handle parse callbacks) ++ receiveLoop parse callbacks running (k + n) t
  := by
  induction n generalizing k s msgs with
  | zero =>
      obtain ⟨rfl, rfl⟩ := Prod.mk.inj (Option.some.inj hreads)
      rfl
  | succ n ih =>
      rw [readMessages] at hreads
      split at hreads
      next msg u hread =>
        obtain ⟨⟨rest, v⟩, hrest, heq⟩ := Option.map_eq_some_iff.mp hreads
        obtain ⟨rfl, rfl⟩ := Prod.mk.inj heq
        rw [receiveLoop, if_pos (hrunning k)]
        split
        next hfailed => cases hread.symm.trans hfailed
        next hthrew => cases hread.symm.trans hthrew
        next msg' u' hread' =>
          obtain ⟨rfl, rfl⟩ := MessageRead.delivered.inj (hread.symm.trans hread')
          rw [ih hrest, List.flatMap_cons, List.append_assoc, Nat.add_assoc k 1 n,
            Nat.add_comm 1 n]
      next => cases hreads
      next => cases hreads

/-- At the end of the stream no header is read. -/
theorem readMessage_nil {s : Socket} (hs : s.bytes = []) :
  readMessage s = .failed
  := by
  have hheader := TlsSocket.takes_recvAll (header 0) (by decide)
  have hshort := hheader.short s (by rw [hs]; apply List.nil_prefix) (by rw [hs]; decide)
  rw [length_header] at hshort
  rw [readMessage, hshort]

theorem receiveLoop_nil
    {k : Nat} {s : Socket} (hs : s.bytes = []) (hrunning : ∀ i, running i = true) :
  receiveLoop parse callbacks running k s
    = if callbacks.disconnect then [.disconnected] else []
  := by
  rw [receiveLoop, if_pos (hrunning k)]
  split
  next => rw [hrunning (k + 1), Bool.true_and]
  next h => cases (readMessage_nil hs).symm.trans h
  next h => cases (readMessage_nil hs).symm.trans h

end Run

/-- From packets and the end of the stream the thread sends a pong for each ping, hands on each
of the other messages, in their order, and at last reports the disconnect, and does nothing
else. -/
theorem receiveLoop_answers
    (parse : Bytes → Option Json) {msgs : List CastMessage}
    (hsize : ∀ msg ∈ msgs, (encodeCastMessage msg).length ≤ 1000000)
    {stream : Bytes} (hwritten : Written msgs stream) {s : Socket} (hs : s.bytes = stream)
    {running : Nat → Bool} (hrunning : ∀ i, running i = true) :
  ∃ events, receiveLoop parse ⟨true, true⟩ running 0 s = events ++ [.disconnected] ∧
    List.Forall₂ (Answers parse) msgs events
  := by
  obtain ⟨t, hreads, ht⟩ := readMessages_written hsize hwritten hs
  use msgs.flatMap (handle parse ⟨true, true⟩)
  constructor
  · rw [receiveLoop_of_readMessages parse _ hreads hrunning, receiveLoop_nil parse _ ht hrunning,
      if_pos rfl]
  · apply flatMap_handle_answers

/-- A ping, a heartbeat that is no JSON, and a message of another namespace. -/
def heartbeats : List CastMessage :=
  [{ sourceId := Bytes.ofAscii "receiver-0"
     destinationId := Bytes.ofAscii "sender-0"
     namespaceUri := nsHeartbeat
     payloadUtf8 := Bytes.ofAscii "\x7b\"type\":\"PING\"\x7d" },
    { namespaceUri := nsHeartbeat, payloadUtf8 := Bytes.ofAscii "PING" },
    { payloadUtf8 := Bytes.ofAscii "\x7b\"type\":\"PING\"\x7d" }]

/-- The parser, on the payloads of `heartbeats`. -/
def parsePing (payload : Bytes) : Option Json :=
  if payload = Bytes.ofAscii "\x7b\"type\":\"PING\"\x7d" then
    some (.object [(Bytes.ofAscii "type", .string (Bytes.ofAscii "PING"))])
  else none

theorem encode_heartbeats_length :
  ∀ msg ∈ heartbeats, (encodeCastMessage msg).length ≤ 1000000
  := by
  decide +kernel

theorem receiveLoop_answers_heartbeats :
  ∃ events, receiveLoop parsePing ⟨true, true⟩ (fun _ => true) 0
      (.bytewise (heartbeats.flatMap packet)) = events ++ [.disconnected] ∧
    List.Forall₂ (Answers parsePing) heartbeats events
  := by
  apply receiveLoop_answers parsePing encode_heartbeats_length (written_packets heartbeats)
  · apply Socket.bytes_bytewise
  · intro i
    rfl

end CastChannel

end NexusMainframe
