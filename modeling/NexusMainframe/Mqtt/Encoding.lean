import NexusMainframe.Mqtt.Client

/-!
# The packets the client sends

The client writes the Remaining Length of a packet as one byte, its size cast to
`uint8_t`. A decoder reads the packet back when the size is below 128, where one byte is
the whole base-128 form, and in no other case.
-/

namespace NexusMainframe

namespace MQTTClient

/-! ### The packets of the calls -/

theorem encodeString_eq (s : Bytes) :
  encodeString s = Mqtt.string s
  := by
  have hhi : lowByte ((s.length >>> 8) &&& 0xFF) = UInt8.ofNat (s.length >>> 8) := by
    apply UInt8.toNat_inj.mp
    simp [lowByte, UInt8.toNat_ofNat', Nat.and_two_pow_sub_one_eq_mod _ 8]
  have hlo : lowByte (s.length &&& 0xFF) = UInt8.ofNat s.length := by
    apply UInt8.toNat_inj.mp
    simp [lowByte, UInt8.toNat_ofNat', Nat.and_two_pow_sub_one_eq_mod _ 8]
  rw [encodeString, hhi, hlo, Mqtt.string]
  rfl

theorem connectPacket_eq (clientId : Bytes) :
  connectPacket clientId = packet 0x10 (Mqtt.Packet.connect 0x02 60 clientId []).body
  := by
  have hbody : (Mqtt.Packet.connect 0x02 60 clientId []).body
      = Mqtt.protocol ++ 0x02 :: Bytes.bigEndian 2 60 ++ Mqtt.string clientId := by
    simp [Mqtt.Packet.body]
  rw [connectPacket, encodeString_eq, hbody]
  rfl

theorem subscribePacket_eq (pid : UInt16) (topic : Bytes) :
  subscribePacket pid topic = packet 0x82 (Mqtt.Packet.subscribe pid.toNat [(topic, 0)]).body
  := by
  have hhi : (pid >>> 8).toUInt8 = UInt8.ofNat (pid.toNat >>> 8) := by
    apply UInt8.toNat_inj.mp
    simp [UInt8.toNat_ofNat']
  have hlo : (pid &&& 0xFF).toUInt8 = UInt8.ofNat pid.toNat := by
    apply UInt8.toNat_inj.mp
    simp [Nat.and_two_pow_sub_one_eq_mod _ 8]
  rw [subscribePacket, encodeString_eq, hhi, hlo]
  simp [Mqtt.Packet.body, Mqtt.filter, Bytes.bigEndian]
  rfl

theorem publishPacket_eq (topic payload : Bytes) :
  publishPacket topic payload = packet 0x30 (Mqtt.Packet.publish false topic payload).body
  := by
  rw [publishPacket, encodeString_eq]
  rfl

/-- `connect` sends its packet when it gets a connected socket. -/
theorem packets_connect (c : MQTTClient) (sock status sent : Int) :
  packets (c.connect sock status sent).2.2
    = if sock < 0 ∨ status < 0 then [] else [connectPacket c.clientId]
  := by
  by_cases hsock : sock < 0
  · simp [connect, hsock, packets]
  · by_cases hstatus : status < 0
    · simp [connect, hsock, hstatus, packets]
    · cases hrx : c.rxThread <;> cases hping : c.pingThread <;>
        simp [connect, hsock, hstatus, hrx, hping, sendPacket, packets]

theorem packets_subscribe (c : MQTTClient) (pid : UInt16) (topic : Bytes) (sent : Int) :
  packets (c.subscribe pid topic sent).2.2 = [subscribePacket pid topic]
  := rfl

theorem packets_publish (c : MQTTClient) (topic payload : Bytes) (sent : Int) :
  packets (c.publish topic payload sent).2 = [publishPacket topic payload]
  := rfl

/-! ### Reading the packets back -/

/-- A packet whose body takes fewer than 128 bytes is encoded as MQTT prescribes. -/
theorem packet_eq_encode
    {p : Mqtt.Packet} (h : p.body.length < 128) :
  packet p.typeByte p.body = p.encode
  := by
  simp [packet, lowByte, Mqtt.Packet.encode, Varint.encode, h]

/-- Bytes that are read as a packet no shorter than the body they were made of have a body
of fewer than 128 bytes. -/
theorem length_lt_of_decode
    {type : UInt8} {body : Bytes} {p : Mqtt.Packet}
    (h : Mqtt.decode (packet type body) = some (p, []))
    (hlen : body.length ≤ p.body.length) :
  body.length < 128
  := by
  rcases Nat.lt_or_ge (lowByte body.length).toNat 128 with hlow | hlow
  · rw [Mqtt.decode_short hlow h]
    apply hlow
  · have := Mqtt.decode_long hlow h
    omega

/-- The bytes are read as exactly one packet, of which `R` holds. -/
def ReadAs (bytes : Bytes) (R : Mqtt.Packet → Prop) : Prop :=
  ∃ p, Mqtt.decode bytes = some (p, []) ∧ R p

/-- A CONNECT that carries the client identifier. -/
def IsConnect (clientId : Bytes) (p : Mqtt.Packet) : Prop :=
  ∃ flags keepAlive fields, p = .connect flags keepAlive clientId fields

/-- A SUBSCRIBE that carries the topic filter and no other. -/
def IsSubscribe (topic : Bytes) (p : Mqtt.Packet) : Prop :=
  ∃ packetId qos, p = .subscribe packetId [(topic, qos)]

/-- A PUBLISH that carries the topic and the payload. -/
def IsPublish (topic payload : Bytes) (p : Mqtt.Packet) : Prop :=
  ∃ retain, p = .publish retain topic payload

/-- What the client makes of a packet is read as one that has a property of it, when the
property holds of no packet with a shorter body, just if the body takes fewer than 128
bytes. -/
theorem readAs_packet
    {p : Mqtt.Packet} {R : Mqtt.Packet → Prop} (hp : R p)
    (hencodable : p.body.length < 128 → p.Encodable)
    (hlen : ∀ q, R q → p.body.length ≤ q.body.length) :
  ReadAs (packet p.typeByte p.body) R ↔ p.body.length < 128
  := by
  constructor
  · rintro ⟨q, hq, hR⟩
    apply length_lt_of_decode hq (hlen q hR)
  · intro h
    use p
    constructor
    · rw [packet_eq_encode h, ← List.append_nil p.encode]
      apply Mqtt.decode_encode (hencodable h)
    · apply hp

theorem readAs_connectPacket (clientId : Bytes) :
  ReadAs (connectPacket clientId) (IsConnect clientId) ↔ clientId.length ≤ 115
  := by
  have hlen : ∀ flags keepAlive fields,
      (Mqtt.Packet.connect flags keepAlive clientId fields).body.length
        = 12 + clientId.length + (fields.flatMap Mqtt.string).length := by
    intro flags keepAlive fields
    simp only [Mqtt.Packet.body, Mqtt.protocol, Mqtt.string, Bytes.ofAscii, List.length_append,
      List.length_cons, List.length_map, Bytes.length_bigEndian]
    simp
    omega
  rw [connectPacket_eq]
  apply (readAs_packet (p := .connect 0x02 60 clientId []) ⟨_, _, _, rfl⟩ _ _).trans
  · rw [hlen]
    simp
    omega
  · intro h
    rw [hlen] at h
    constructor
    · rw [hlen]
      simp at h ⊢
      omega
    · use rfl, by decide, by omega, rfl
      simp
  · rintro q ⟨flags, keepAlive, fields, rfl⟩
    rw [hlen, hlen]
    simp

theorem readAs_subscribePacket (pid : UInt16) (topic : Bytes) :
  ReadAs (subscribePacket pid topic) (IsSubscribe topic) ↔ topic.length ≤ 122
  := by
  have hlen : ∀ packetId qos,
      (Mqtt.Packet.subscribe packetId [(topic, qos)]).body.length = 5 + topic.length := by
    intro packetId qos
    simp [Mqtt.Packet.body, Mqtt.filter, Mqtt.string]
    omega
  rw [subscribePacket_eq]
  apply (readAs_packet (p := .subscribe pid.toNat [(topic, 0)]) ⟨_, _, rfl⟩ _ _).trans
  · rw [hlen]
    omega
  · intro h
    rw [hlen] at h
    constructor
    · rw [hlen]
      omega
    · use pid.toNat_lt
      simp
      omega
  · rintro q ⟨packetId, qos, rfl⟩
    rw [hlen, hlen]

theorem readAs_publishPacket (topic payload : Bytes) :
  ReadAs (publishPacket topic payload) (IsPublish topic payload)
    ↔ topic.length + payload.length ≤ 125
  := by
  have hlen : ∀ retain,
      (Mqtt.Packet.publish retain topic payload).body.length
        = 2 + topic.length + payload.length := by
    intro retain
    simp [Mqtt.Packet.body, Mqtt.string]
    omega
  rw [publishPacket_eq]
  apply (readAs_packet (p := .publish false topic payload) ⟨_, rfl⟩ _ _).trans
  · rw [hlen]
    omega
  · intro h
    rw [hlen] at h
    constructor
    · rw [hlen]
      omega
    · dsimp only
      omega
  · rintro q ⟨retain, rfl⟩
    rw [hlen, hlen]

/-- What the calls send is read as exactly the packet it was made to be just if the client
identifier takes at most 115 bytes, the topic filter at most 122, and the topic and the
payload at most 125 together. -/
theorem sent_readAs_iff
    (c : MQTTClient) (sock status sent : Int) (pid : UInt16) (topic payload : Bytes) :
  (∀ bytes ∈ packets (c.connect sock status sent).2.2,
    (ReadAs bytes (IsConnect c.clientId) ↔ c.clientId.length ≤ 115))
  ∧ (∀ bytes ∈ packets (c.subscribe pid topic sent).2.2,
    (ReadAs bytes (IsSubscribe topic) ↔ topic.length ≤ 122))
  ∧ (∀ bytes ∈ packets (c.publish topic payload sent).2,
    (ReadAs bytes (IsPublish topic payload) ↔ topic.length + payload.length ≤ 125))
  := by
  constructor
  · intro bytes hbytes
    rw [packets_connect] at hbytes
    split at hbytes
    next => cases hbytes
    next =>
      obtain rfl := List.mem_singleton.mp hbytes
      apply readAs_connectPacket
  · constructor
    · intro bytes hbytes
      rw [packets_subscribe] at hbytes
      obtain rfl := List.mem_singleton.mp hbytes
      apply readAs_subscribePacket
    · intro bytes hbytes
      rw [packets_publish] at hbytes
      obtain rfl := List.mem_singleton.mp hbytes
      apply readAs_publishPacket

theorem sent_readAs_nexusCore :
  ReadAs (connectPacket (Bytes.ofAscii "nexus-core")) (IsConnect (Bytes.ofAscii "nexus-core"))
  := by
  apply ((sent_readAs_iff (init (Bytes.ofAscii "nexus-core")) 5 0 24 0 [] []).1 _ _).mpr
  · decide
  · simp [packets_connect, init]

/-- A message of 125 bytes under a topic of one byte is not read back. -/
theorem not_sent_readAs :
  ¬ ((∀ (c : MQTTClient) (sock status sent : Int),
      ∀ bytes ∈ packets (c.connect sock status sent).2.2, ReadAs bytes (IsConnect c.clientId))
    ∧ (∀ (c : MQTTClient) (pid : UInt16) (topic : Bytes) (sent : Int),
      ∀ bytes ∈ packets (c.subscribe pid topic sent).2.2, ReadAs bytes (IsSubscribe topic))
    ∧ (∀ (c : MQTTClient) (topic payload : Bytes) (sent : Int),
      ∀ bytes ∈ packets (c.publish topic payload sent).2,
        ReadAs bytes (IsPublish topic payload)))
  := by
  rintro ⟨-, -, h⟩
  have hread := h (init []) (Bytes.ofAscii "t") (List.replicate 125 0) 130 _
    (List.mem_singleton_self _)
  have hlen := (readAs_publishPacket _ _).mp hread
  rw [List.length_replicate] at hlen
  simp [Bytes.ofAscii] at hlen

end MQTTClient

end NexusMainframe
