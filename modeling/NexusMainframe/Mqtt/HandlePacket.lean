import NexusMainframe.Mqtt.Segmentation

/-!
# How the client handles a packet

`handlePacket` reads the byte of the Remaining Length before it has looked at the size of the
chunk, and takes the address of the byte behind the head of a PUBLISH even when nothing is
there. It takes the Remaining Length for one byte, so it publishes the message of a packet
just if the packet has at most 127 bytes behind that byte.
-/

namespace NexusMainframe

namespace MQTTClient

/-! ### What is read -/

/-- Every `data[i]` that is evaluated is in the chunk. -/
def ReadsInside (data : Bytes) : Prop :=
  ∀ i ∈ (handlePacket data).reads, i < data.length

/-- The reads of a chunk that is taken for a PUBLISH, behind those of the hex dump. -/
def publishReads (data : Bytes) : List Nat :=
  1 ::
    if data.length < 4 then []
    else 2 :: 3 ::
      if data.length < 4 + topicLen data then []
      else 4 :: if 4 + topicLen data < data.length then [4 + topicLen data] else []

theorem reads_handlePacket {data : Bytes} (hne : data ≠ []) :
  (handlePacket data).reads
    = 0 :: List.range data.length ++ if byteAt data 0 >>> 4 = 3 then publishReads data else []
  := by
  have hshort : 2 + 2 > data.length ↔ data.length < 4 := by omega
  simp only [handlePacket, hne, if_false, hshort, publishReads]
  split
  next =>
    split
    next => rfl
    next =>
      split
      next => simp
      next => split <;> simp
  next => simp

/-- All reads are in the chunk, unless it is taken for a PUBLISH and has one byte, or has four
and an empty topic. -/
theorem readsInside_iff (data : Bytes) :
  ReadsInside data ↔ ¬ (byteAt data 0 >>> 4 = 3 ∧
    (data.length = 1 ∨ data.length = 4 ∧ topicLen data = 0))
  := by
  by_cases hne : data = []
  · subst hne
    simp [ReadsInside, handlePacket, byteAt]
  have hpos := List.length_pos_iff.mpr hne
  have hdump : ∀ i ∈ 0 :: List.range data.length, i < data.length := by
    simp [hpos]
  rw [ReadsInside, reads_handlePacket hne, List.forall_mem_append, and_iff_right hdump]
  by_cases htype : byteAt data 0 >>> 4 = 3
  · rw [if_pos htype, publishReads, List.forall_mem_cons]
    simp only [htype, true_and]
    by_cases hshort : data.length < 4
    · simp [hshort]
      omega
    · by_cases hfits : data.length < 4 + topicLen data
      · simp [hshort, hfits]
        omega
      · by_cases hpayload : 4 + topicLen data < data.length
        · simp [hshort, hfits, hpayload]
          omega
        · simp [hshort, hfits, hpayload]
          omega
  · simp [htype]

/-- The type byte of a PUBLISH alone. -/
theorem not_readsInside :
  ¬ ∀ data : Bytes, 1 ≤ data.length → data.length ≤ 1024 → ReadsInside data
  := by
  intro h
  have hread := h [0x30] (by decide) (by decide) 1 (by decide)
  exact absurd hread (by decide)

/-! ### What is published -/

/-- A topic and a payload that are published take up the chunk behind its first four bytes. -/
theorem length_of_events
    {data topic payload : Bytes} (h : (handlePacket data).events = messageEvents topic payload) :
  data.length = 4 + topic.length + payload.length
  := by
  match data with
  | type :: len :: hi :: lo :: rest =>
      rw [events_handlePacket] at h
      split at h
      next hif =>
        obtain ⟨htopic, -⟩ := List.cons.inj h
        obtain ⟨htopic, hpayload⟩ := Event.mk.inj htopic
        rw [← List.append_cancel_left htopic, ← EventData.string.inj hpayload]
        simp only [List.length_cons, List.length_take, List.length_drop]
        omega
      next => cases h
  | [] | [_] | [_, _] | [_, _, _] =>
      rw [events_handlePacket_short (by simp)] at h
      cases h

/-- A packet with one byte of Remaining Length is published as its message. -/
theorem events_handlePacket_of_lt
    {retain : Bool} {topic payload : Bytes} (h : topic.length + payload.length ≤ 125) :
  (handlePacket (Mqtt.Packet.publish retain topic payload).encode).events
    = messageEvents topic payload
  := by
  have hbody := Mqtt.Packet.length_body_publish retain topic payload
  have hlength := Mqtt.ofBigEndian_length (s := topic) (by omega)
  have hencode : (Mqtt.Packet.publish retain topic payload).encode
      = (Mqtt.Packet.publish retain topic payload).typeByte
        :: UInt8.ofNat (Mqtt.Packet.publish retain topic payload).body.length
        :: UInt8.ofNat (topic.length >>> 8) :: UInt8.ofNat topic.length :: (topic ++ payload) := by
    rw [Mqtt.Packet.encode, Varint.encode, if_pos (by omega), Mqtt.Packet.body, Mqtt.string_eq]
    rfl
  rw [hencode, events_handlePacket, hlength,
    if_pos ⟨Mqtt.Packet.typeByte_publish retain topic payload, by simp⟩, List.take_left,
    List.drop_left]

/-- A packet with two or more bytes of Remaining Length is not. -/
theorem length_le_of_events
    {retain : Bool} {topic payload : Bytes}
    (h : (handlePacket (Mqtt.Packet.publish retain topic payload).encode).events
      = messageEvents topic payload) :
  topic.length + payload.length ≤ 125
  := by
  by_contra hlong
  have hbody := Mqtt.Packet.length_body_publish retain topic payload
  have hlength : 2 ≤ (Varint.encode 4
      (Mqtt.Packet.publish retain topic payload).body.length).length :=
    Varint.two_le_length_encode (by omega)
  have hdata := length_of_events h
  rw [Mqtt.Packet.encode, List.cons_append, List.length_cons, List.length_append] at hdata
  omega

/-- The whole packet of a message is published as the message just if its topic and its payload
have at most 125 bytes together. -/
theorem events_handlePacket_encode_iff (retain : Bool) (topic payload : Bytes) :
  (handlePacket (Mqtt.Packet.publish retain topic payload).encode).events
    = messageEvents topic payload ↔ topic.length + payload.length ≤ 125
  := ⟨length_le_of_events, events_handlePacket_of_lt⟩

/-- A message of 125 bytes under a topic of one byte. -/
theorem not_events_handlePacket_encode :
  ¬ ∀ (retain : Bool) (topic payload : Bytes), 1 ≤ topic.length → topic.length ≤ 65535 →
      (Mqtt.Packet.publish retain topic payload).body.length ≤ 268435455 →
      (handlePacket (Mqtt.Packet.publish retain topic payload).encode).events
        = messageEvents topic payload
  := by
  intro h
  have hbody := Mqtt.Packet.length_body_publish false (Bytes.ofAscii "t") (List.replicate 125 0)
  rw [List.length_replicate] at hbody
  have hevents := h false (Bytes.ofAscii "t") (List.replicate 125 0) (by decide) (by decide)
    (by rw [hbody]; decide)
  have hshort := length_le_of_events hevents
  rw [List.length_replicate] at hshort
  exact absurd hshort (by decide)

end MQTTClient

end NexusMainframe
