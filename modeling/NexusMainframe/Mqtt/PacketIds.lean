import NexusMainframe.Lib.Window
import NexusMainframe.Mqtt.Client

/-!
# Packet identifiers

The packet identifier of a SUBSCRIBE is counted in 16 bits by the whole process, from one. It
is counted up by every call of `subscribe`, whether its packet is sent or not, and it wraps
around to zero, so it is the number of the call modulo 65536.
-/

namespace NexusMainframe

namespace MQTTClient

/-- A call of `subscribe` of some client, where `send` returns `sent`. -/
structure SubscribeCall where
  client : MQTTClient
  topic : Bytes
  sent : Int
deriving DecidableEq

/-- The packets that are sent by some calls, one after another, from a packet identifier on. A
packet is sent when `send` takes something of it. -/
def subscribeAll : UInt16 → List SubscribeCall → List Bytes
  | _, [] => []
  | pid, call :: calls =>
      let (result, pid, effects) := call.client.subscribe pid call.topic call.sent
      (if result then packets effects else []) ++ subscribeAll pid calls

/-- The packet identifier in the bytes of a SUBSCRIBE, behind its type and its length. -/
def packetIdentifier : Bytes → Nat
  | _ :: _ :: hi :: lo :: _ => hi.toNat * 256 + lo.toNat
  | _ => 0

/-- No packet has the identifier zero, and those of any 65535 packets one after another are
different. -/
def Identifies (packets : List Bytes) : Prop :=
  (∀ p ∈ packets, packetIdentifier p ≠ 0)
    ∧ ∀ w, w <:+: packets → w.length = 65535 → (w.map packetIdentifier).Nodup

/-- The numbers of the calls that send their packets, where the first call has a number. -/
def sendNumbers : Nat → List SubscribeCall → List Nat
  | _, [] => []
  | k, call :: calls => (if call.sent > 0 then [k] else []) ++ sendNumbers (k + 1) calls

/-- No call with a number divisible by 65536 sends its packet, and, where 65535 packets are
sent, no two of fewer than 65535 one after another are sent by calls whose numbers differ by a
multiple of 65536. -/
def Spaced (numbers : List Nat) : Prop :=
  (∀ k ∈ numbers, k % 0x10000 ≠ 0)
    ∧ (65535 ≤ numbers.length → ∀ p q k k', p < q → q < p + 65535 → numbers[p]? = some k →
        numbers[q]? = some k' → k % 0x10000 ≠ k' % 0x10000)

theorem packetIdentifier_subscribePacket (pid : UInt16) (topic : Bytes) :
  packetIdentifier (subscribePacket pid topic) = pid.toNat
  := by
  have hlt := pid.toNat_lt
  have hhi : (pid >>> 8).toUInt8.toNat = pid.toNat / 256 := by
    simp [Nat.shiftRight_eq_div_pow]
    omega
  have hlo : (pid &&& 0xFF).toUInt8.toNat = pid.toNat % 256 := by
    simp [Nat.and_two_pow_sub_one_eq_mod _ 8]
  have hidentifier : packetIdentifier (subscribePacket pid topic)
      = (pid >>> 8).toUInt8.toNat * 256 + (pid &&& 0xFF).toUInt8.toNat := rfl
  rw [hidentifier, hhi, hlo]
  omega

/-- The identifiers of the packets are the numbers of their calls modulo 65536. -/
theorem map_packetIdentifier
    (pid : UInt16) (k : Nat) (h : pid.toNat = k % 0x10000) (calls : List SubscribeCall) :
  (subscribeAll pid calls).map packetIdentifier
    = (sendNumbers k calls).map fun k => k % 0x10000
  := by
  induction calls generalizing pid k with
  | nil => rfl
  | cons call calls ih =>
      have hnext : (pid + 1).toNat = (k + 1) % 0x10000 := by
        simp only [UInt16.toNat_add, h]
        simp
      have hrest := ih (pid + 1) (k + 1) hnext
      rw [subscribeAll, sendNumbers, List.map_append, List.map_append, ← hrest]
      by_cases hsent : call.sent > 0
      · simp [subscribe, sendPacket, packets, hsent, packetIdentifier_subscribePacket, h]
      · simp [subscribe, sendPacket, hsent]

/-- The packets of some calls identify them just if the calls that send are spaced. -/
theorem identifies_iff_spaced (calls : List SubscribeCall) :
  Identifies (subscribeAll 1 calls) ↔ Spaced (sendNumbers 1 calls)
  := by
  have hmap := map_packetIdentifier 1 1 rfl calls
  have hzero : (∀ p ∈ subscribeAll 1 calls, packetIdentifier p ≠ 0)
      ↔ ∀ k ∈ sendNumbers 1 calls, k % 0x10000 ≠ 0 := by
    have hmem : ∀ n, (∃ p ∈ subscribeAll 1 calls, packetIdentifier p = n)
        ↔ ∃ k ∈ sendNumbers 1 calls, k % 0x10000 = n := by
      intro n
      rw [← List.mem_map, hmap, List.mem_map]
    constructor
    · intro h k hk heq
      obtain ⟨p, hp, hzero⟩ := (hmem 0).mpr ⟨k, hk, heq⟩
      apply h p hp hzero
    · intro h p hp hzero
      obtain ⟨k, hk, heq⟩ := (hmem 0).mp ⟨p, hp, hzero⟩
      apply h k hk heq
  have hwindow : (∀ w, w <:+: subscribeAll 1 calls → w.length = 65535 →
        (w.map packetIdentifier).Nodup)
      ↔ ∀ w, w <:+: (sendNumbers 1 calls).map (fun k => k % 0x10000) → w.length = 65535 →
        w.Nodup := by
    rw [← hmap]
    constructor
    · intro h w hw hlength
      obtain ⟨w, hinfix, rfl⟩ := List.infix_map_iff.mp hw
      rw [List.length_map] at hlength
      apply h w hinfix hlength
    · intro h w hw hlength
      apply h _ (hw.map packetIdentifier)
      rw [List.length_map, hlength]
  rw [Identifies, hzero, hwindow, Window.nodup_iff, Spaced, List.length_map]
  apply and_congr_right'
  apply imp_congr_right
  intro _
  simp only [List.getElem?_map, Option.map_eq_some_iff, ne_eq, not_exists, not_and]
  constructor
  · intro h p q k k' hp hclose hk hk' heq
    apply h p q (k % 0x10000) hp hclose ⟨k, hk, rfl⟩ k' hk' heq.symm
  · rintro h p q _ hp hclose ⟨k, hk, rfl⟩ k' hk' heq
    apply h p q k k' hp hclose hk hk' heq.symm

theorem sendNumbers_of_sent
    {calls : List SubscribeCall} (h : ∀ call ∈ calls, call.sent > 0) (k : Nat) :
  sendNumbers k calls = List.range' k calls.length
  := by
  induction calls generalizing k with
  | nil => rfl
  | cons call calls ih =>
      obtain ⟨hcall, hcalls⟩ := List.forall_mem_cons.mp h
      rw [sendNumbers, if_pos hcall, ih hcalls, List.length_cons, List.range'_succ,
        List.singleton_append]

theorem spaced_range' (n : Nat) :
  Spaced (List.range' 1 n) ↔ n < 0x10000
  := by
  constructor
  · rintro ⟨hzero, -⟩
    by_contra hn
    apply hzero 0x10000
    · rw [List.mem_range'_1]
      omega
    · rfl
  · intro hn
    constructor
    · intro k hk
      rw [List.mem_range'_1] at hk
      omega
    · intro _ p q k k' hp hclose hk hk'
      obtain ⟨hlt, rfl⟩ := List.getElem?_eq_some_iff.mp hk
      obtain ⟨hlt', rfl⟩ := List.getElem?_eq_some_iff.mp hk'
      rw [List.length_range'] at hlt hlt'
      rw [List.getElem_range', List.getElem_range']
      omega

/-- The packets of a run identify its calls just if the calls that send are spaced: if all of
them send, just if there are fewer than 65536. -/
theorem subscribeAll_identifies_iff (calls : List SubscribeCall) :
  (Identifies (subscribeAll 1 calls) ↔ Spaced (sendNumbers 1 calls))
    ∧ ((∀ call ∈ calls, call.sent > 0) →
      (Identifies (subscribeAll 1 calls) ↔ calls.length < 0x10000))
  := by
  use identifies_iff_spaced calls
  intro h
  rw [identifies_iff_spaced, sendNumbers_of_sent h, spaced_range']

/-- The packet of the call with the number 65536 has the identifier zero. -/
theorem not_subscribeAll_identifies :
  ¬ ∀ calls : List SubscribeCall, Identifies (subscribeAll 1 calls)
  := by
  intro h
  let call : SubscribeCall := ⟨init (Bytes.ofAscii "nexus-core"), Bytes.ofAscii "sensors/#", 16⟩
  have hsent : ∀ c ∈ List.replicate 0x10000 call, c.sent > 0 := by
    intro c hc
    rw [List.eq_of_mem_replicate hc]
    decide
  have hall := h (List.replicate 0x10000 call)
  rw [identifies_iff_spaced, sendNumbers_of_sent hsent, spaced_range', List.length_replicate]
    at hall
  apply lt_irrefl _ hall

end MQTTClient

end NexusMainframe
