import NexusMainframe.Lib.Stream
import NexusMainframe.Mqtt.Client

/-!
# How the client reads the broker's stream

`handlePacket` takes what one call of `recv` returns for one packet, and the rest of it
for the payload. So the events of a stream depend on where it is cut as soon as some
cutting of it publishes anything, because the cutting into single bytes publishes nothing.
-/

namespace NexusMainframe

namespace MQTTClient

/-! ### One chunk -/

theorem topicLen_eq (type len hi lo : UInt8) (rest : Bytes) :
  topicLen (type :: len :: hi :: lo :: rest) = Bytes.ofBigEndian [hi, lo]
  := by
  have hlo := lo.toNat_lt
  have hor := Nat.shiftLeft_add_eq_or_of_lt hlo hi.toNat
  have hshift := Nat.shiftLeft_eq hi.toNat 8
  simp only [topicLen, byteAt, List.getD_cons_succ, List.getD_cons_zero, Bytes.ofBigEndian,
    List.foldl_cons, List.foldl_nil]
  omega

/-- The events of a chunk of at least four bytes. -/
theorem events_handlePacket (type len hi lo : UInt8) (rest : Bytes) :
  (handlePacket (type :: len :: hi :: lo :: rest)).events
    = if type.toNat >>> 4 = 3 ∧ Bytes.ofBigEndian [hi, lo] ≤ rest.length then
        messageEvents (rest.take (Bytes.ofBigEndian [hi, lo]))
          (rest.drop (Bytes.ofBigEndian [hi, lo]))
      else []
  := by
  have htype : byteAt (type :: len :: hi :: lo :: rest) 0 = type.toNat := rfl
  have htopic := topicLen_eq type len hi lo rest
  generalize Bytes.ofBigEndian [hi, lo] = n at htopic ⊢
  have hdrop : ∀ k, (type :: len :: hi :: lo :: rest).drop (4 + k) = rest.drop k := by
    intro k
    rw [Nat.add_comm, List.drop_succ_cons, List.drop_succ_cons, List.drop_succ_cons,
      List.drop_succ_cons]
  have hlong : ¬ 2 + 2 > rest.length + 1 + 1 + 1 + 1 := by omega
  have hfits : 2 + 2 + n > rest.length + 1 + 1 + 1 + 1 ↔ ¬ n ≤ rest.length := by omega
  simp only [handlePacket, htype, htopic, reduceCtorEq, if_false, List.length_cons, hlong, hfits]
  by_cases h : type.toNat >>> 4 = 3
  · by_cases hle : n ≤ rest.length
    · simp only [h, hle, not_true_eq_false, and_self, if_true, if_false]
      rw [apply_ite Handled.events, hdrop n, hdrop 0, List.drop_zero]
      split
      next => rfl
      next hend => rw [List.drop_eq_nil_of_le (by omega)]
    · simp only [h, hle, not_false_eq_true, and_false, if_true, if_false]
  · simp only [h, false_and, if_false]

/-- A chunk of fewer than four bytes publishes nothing. -/
theorem events_handlePacket_short
    {data : Bytes} (h : data.length < 4) :
  (handlePacket data).events = []
  := by
  have hshort : 2 + 2 > data.length := h
  simp only [handlePacket, hshort, if_true]
  split
  · rfl
  · split <;> rfl

/-- What `handlePacket` takes for a PUBLISH up to the end of its topic. -/
def IsTopicHead (bs : Bytes) : Prop :=
  ∃ type len hi lo topic, bs = type :: len :: hi :: lo :: topic
    ∧ type.toNat >>> 4 = 3 ∧ topic.length = Bytes.ofBigEndian [hi, lo]

/-- A chunk publishes something just if it begins with a PUBLISH up to its topic. -/
theorem events_ne_nil_iff {data : Bytes} :
  (handlePacket data).events ≠ [] ↔ ∃ bs, bs <+: data ∧ IsTopicHead bs
  := by
  constructor
  · intro h
    match data with
    | type :: len :: hi :: lo :: rest =>
        rw [events_handlePacket] at h
        split at h
        next hif =>
          use type :: len :: hi :: lo :: rest.take (Bytes.ofBigEndian [hi, lo])
          constructor
          · simp only [List.cons_prefix_cons, true_and]
            apply List.take_prefix
          · use type, len, hi, lo, rest.take (Bytes.ofBigEndian [hi, lo]), rfl, hif.1
            rw [List.length_take, Nat.min_eq_left hif.2]
        next => exact (h rfl).elim
    | [] | [_] | [_, _] | [_, _, _] =>
        rw [events_handlePacket_short (by simp)] at h
        exact (h rfl).elim
  · rintro ⟨_, ⟨rest, rfl⟩, type, len, hi, lo, topic, rfl, htype, htopic⟩
    simp only [List.cons_append]
    rw [events_handlePacket, if_pos ⟨htype, by rw [List.length_append]; omega⟩]
    simp [messageEvents]

/-! ### The whole stream -/

/-- The events that the receive loop publishes, as the chunks of a stream arrive. -/
def publishedBy (chunks : List Bytes) : List (Event EventData) :=
  (receiveLoop true (chunks.map .data)).2.flatMap Handled.events

theorem publishedBy_eq (chunks : List Bytes) :
  publishedBy chunks = chunks.flatMap fun c => (handlePacket c).events
  := by
  induction chunks with
  | nil => rfl
  | cons c chunks ih =>
      rw [List.flatMap_cons, ← ih]
      rfl

/-- Every two ways of cutting a stream into chunks that fit the buffer publish the same
events. -/
def CutIndependent (stream : Bytes) : Prop :=
  ∀ chunks chunks', Stream.Cutting 1024 stream chunks → Stream.Cutting 1024 stream chunks' →
    publishedBy chunks = publishedBy chunks'

/-- Cut into single bytes, a stream publishes nothing. -/
theorem publishedBy_bytewise (bs : Bytes) :
  publishedBy (bs.map fun b => [b]) = []
  := by
  rw [publishedBy_eq, List.flatMap_eq_nil_iff]
  rintro _ hc
  obtain ⟨b, -, rfl⟩ := List.mem_map.mp hc
  apply events_handlePacket_short
  simp

/-- A cutting of a stream without such a stretch publishes nothing. -/
theorem publishedBy_eq_nil
    {stream : Bytes} {chunks : List Bytes}
    (h : ∀ bs, bs <:+: stream → bs.length ≤ 1024 → ¬ IsTopicHead bs)
    (hcut : Stream.Cutting 1024 stream chunks) :
  publishedBy chunks = []
  := by
  rw [publishedBy_eq, List.flatMap_eq_nil_iff]
  intro c hc
  by_contra hne
  obtain ⟨bs, hbs, hhead⟩ := events_ne_nil_iff.mp hne
  apply h bs (hbs.isInfix.trans (hcut.infix_of_mem hc)) _ hhead
  apply hbs.length_le.trans (hcut.bounded c hc)

/-- The cutting that keeps such a stretch together publishes something, where the bytewise
cutting does not. -/
theorem not_cutIndependent_of_isTopicHead
    {stream : Bytes} (bs : Bytes) (hbs : bs <:+: stream) (hlen : bs.length ≤ 1024)
    (hhead : IsTopicHead bs) :
  ¬ CutIndependent stream
  := by
  intro h
  obtain ⟨pre, post, rfl⟩ := hbs
  have hne : bs ≠ [] := by
    obtain ⟨type, len, hi, lo, topic, rfl, -⟩ := hhead
    simp
  have hcut := ((Stream.Cutting.bytewise (by decide : 0 < 1024) pre).append
    (Stream.Cutting.singleton hne hlen)).append (Stream.Cutting.bytewise (by decide) post)
  have heq := h _ _ hcut (Stream.Cutting.bytewise (by decide) _)
  rw [publishedBy_bytewise, publishedBy_eq, List.flatMap_eq_nil_iff] at heq
  apply events_ne_nil_iff.mpr ⟨bs, List.prefix_refl bs, hhead⟩
  apply heq
  simp

/-- Every stream with a PUBLISH of a body below 128 bytes depends on its cutting. -/
theorem not_cutIndependent_of_publish
    {ps : List Mqtt.Packet} {retain : Bool} {topic payload : Bytes}
    (hp : .publish retain topic payload ∈ ps) (hlen : topic.length + payload.length ≤ 125) :
  ¬ CutIndependent (ps.flatMap Mqtt.Packet.encode)
  := by
  have hbody := Mqtt.Packet.length_body_publish retain topic payload
  apply not_cutIndependent_of_isTopicHead
    ((Mqtt.Packet.publish retain topic payload).typeByte
      :: UInt8.ofNat (Mqtt.Packet.publish retain topic payload).body.length
      :: Mqtt.string topic)
  · apply List.IsInfix.trans _ (List.infix_of_mem_flatten (List.mem_map_of_mem hp))
    use [], payload
    rw [Mqtt.Packet.encode, Varint.encode, if_pos (by omega)]
    simp [Mqtt.Packet.body]
  · rw [Mqtt.string_eq]
    simp only [List.length_cons]
    omega
  · rw [Mqtt.string_eq]
    apply Exists.intro _ ⟨_, _, _, topic, rfl, Mqtt.Packet.typeByte_publish retain topic payload,
      (Mqtt.ofBigEndian_length (by omega)).symm⟩

/-- The events of a stream of packets do not depend on its cutting just if no stretch of
at most 1024 bytes of it is what `handlePacket` takes for a PUBLISH up to its topic. -/
theorem cutIndependent_iff (ps : List Mqtt.Packet) :
  CutIndependent (ps.flatMap Mqtt.Packet.encode)
    ↔ ∀ bs, bs <:+: ps.flatMap Mqtt.Packet.encode → bs.length ≤ 1024 → ¬ IsTopicHead bs
  := by
  constructor
  · intro h bs hbs hlen hhead
    apply not_cutIndependent_of_isTopicHead bs hbs hlen hhead h
  · intro h chunks chunks' hcut hcut'
    rw [publishedBy_eq_nil h hcut, publishedBy_eq_nil h hcut']

/-- A packet that a broker sends at QoS 0. -/
def FromBroker (p : Mqtt.Packet) : Prop :=
  p.Encodable ∧
    match p with
    | .connack .. | .publish .. | .suback .. | .pingresp => True
    | _ => False

/-- A message whose payload comes in two chunks is published without its second half. -/
theorem not_cutIndependent :
  ¬ ∀ ps : List Mqtt.Packet, (∀ p ∈ ps, FromBroker p) →
      CutIndependent (ps.flatMap Mqtt.Packet.encode)
  := by
  intro h
  have hbroker : FromBroker (.publish false (Bytes.ofAscii "t") (Bytes.ofAscii "21")) := by
    use ⟨by decide, by decide⟩
  have hind := h [.publish false (Bytes.ofAscii "t") (Bytes.ofAscii "21")] (by simpa using hbroker)
  have heq := hind [[0x30, 5, 0, 1, 116, 50, 49]] [[0x30, 5, 0, 1, 116, 50], [49]]
    ⟨by decide, by decide, by decide⟩ ⟨by decide, by decide, by decide⟩
  revert heq
  decide

end MQTTClient

end NexusMainframe
