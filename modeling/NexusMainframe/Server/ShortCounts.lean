import NexusMainframe.Lib.Wire
import NexusMainframe.Mqtt.Client
import NexusMainframe.Server.WsFrame

/-!
# Short counts of `send`

The MQTT client and the WebSocket server hand each packet and frame to `send` once, whatever it
returns. When it has taken a part of one, the next from any thread is put right behind that
part. `publish` and `subscribe` take every positive count for success.
-/

namespace NexusMainframe

open Wire (Send)
open Wire.Send (Unmixed StopsShort)

namespace MQTTClient

/-- What is sent through `sendPacket`. -/
inductive Outgoing where
  | connect (clientId : Bytes)
  | subscribe (pid : UInt16) (topic : Bytes)
  | publish (topic payload : Bytes)
  | ping

namespace Outgoing

/-- The bytes of the packet. -/
def packet : Outgoing → Bytes
  | connect clientId => connectPacket clientId
  | subscribe pid topic => subscribePacket pid topic
  | publish topic payload => publishPacket topic payload
  | ping => [0xC0, 0x00]

/-- The call has a result that tells whether the packet was sent. -/
def Reports : Outgoing → Prop
  | subscribe _ _ | publish _ _ => True
  | connect _ | ping => False

/-- The result of the call when `send` returns `sent`. -/
def result (c : MQTTClient) (sent : Int) : Outgoing → Option Bool
  | subscribe pid topic => some (c.subscribe pid topic sent).1
  | publish topic payload => some (c.publish topic payload sent).1
  | connect _ | ping => none

theorem result_eq_true_iff {c : MQTTClient} {sent : Int} {o : Outgoing} :
  o.result c sent = some true ↔ o.Reports ∧ 0 < sent
  := by
  cases o <;> simp [result, Reports, MQTTClient.subscribe, MQTTClient.publish, sendPacket]

end Outgoing

/-- What `publish` and `subscribe` report as sent was taken whole. -/
def Honest (c : MQTTClient) (ss : List (Send Outgoing.packet)) : Prop :=
  ∀ s ∈ ss, s.call.result c s.count = some true → s.count = s.call.packet.length

theorem honest_iff {c : MQTTClient} {ss : List (Send Outgoing.packet)} :
  Honest c ss ↔ ∀ s ∈ ss, s.call.Reports → ¬ s.Short
  := by
  apply forall₂_congr
  intro s _
  have hle := s.count_le
  rw [Outgoing.result_eq_true_iff, Send.Short]
  constructor
  · rintro hwhole hreports ⟨hpos, hlt⟩
    have := hwhole ⟨hreports, hpos⟩
    omega
  · rintro hshort ⟨hreports, hpos⟩
    have := hshort hreports
    omega

end MQTTClient

/-- The packets on the connection of an MQTT client stay whole, and `publish` and `subscribe`
report what was taken whole, just if no count is short but of a `connect` or a ping, and
nothing is put behind these; and the frames on a WebSocket connection stay whole just if nothing
is put behind a short count. -/
theorem unmixed_and_honest_iff
    (c : MQTTClient) (packets : List (Send MQTTClient.Outgoing.packet))
    (frames : List (Send WsServer.frame)) :
  (Unmixed packets ∧ MQTTClient.Honest c packets
    ↔ StopsShort packets ∧ ∀ s ∈ packets, s.call.Reports → ¬ s.Short)
    ∧ (Unmixed frames ↔ StopsShort frames)
  := by
  constructor
  · rw [Send.unmixed_iff_stopsShort, MQTTClient.honest_iff]
  · apply Send.unmixed_iff_stopsShort

/-- Of the first ping one byte is taken, and the second one whole. -/
def cutPings : List (Send MQTTClient.Outgoing.packet) :=
  [⟨.ping, 1, by decide⟩, ⟨.ping, 2, by decide⟩]

/-- The bytes `C0 C0 00` are no beginning of pings, and a message of which one byte was taken is
reported as sent. -/
theorem not_unmixed_cutPings :
  (¬ Unmixed cutPings
      ∧ Send.bytes cutPings = [0xC0, 0xC0, 0x00]
      ∧ ∀ n : Nat, ¬ [0xC0, 0xC0, 0x00]
        <+: (List.replicate n .ping).flatMap MQTTClient.Outgoing.packet)
    ∧ ¬ MQTTClient.Honest (.init []) [⟨.publish [0x74] [0x32], 1, by decide⟩]
  := by
  constructor
  · refine ⟨?_, rfl, ?_⟩
    · rw [Send.unmixed_iff_stopsShort, StopsShort, cutPings, List.pairwise_cons]
      rintro ⟨hall, -⟩
      cases hall _ (List.mem_singleton_self _) ⟨by decide, by decide⟩
    · intro n hprefix
      cases n with
      | zero => cases List.prefix_nil.mp hprefix
      | succ n =>
          rw [List.replicate_succ, List.flatMap_cons] at hprefix
          have hsecond := (List.cons_prefix_cons.mp hprefix).2
          cases (List.cons_prefix_cons.mp hsecond).1
  · intro hhonest
    cases hhonest _ (List.mem_singleton_self _) rfl

end NexusMainframe
