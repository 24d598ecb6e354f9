import NexusMainframe.Event.EventBus
import NexusMainframe.Logging.LogBroadcaster
import NexusMainframe.Services.TopicMatch
import NexusMainframe.Services.WsSubscriptions
import Mathlib.Algebra.BigOperators.Group.Finset.Piecewise
import Mathlib.Data.Multiset.Bind

/-!
# The bridge from MQTT messages to WebSocket clients

On an MQTT message the service sends a frame to the clients of every filter that matches
the topic. It goes through the filters, so a client gets one frame for each of its filters
that match. A topic or a payload that is not valid UTF-8 makes the serialiser throw before
anything is sent.

The filters of an `unordered_map` come in no particular order, so the frames are a multiset.
-/

namespace NexusMainframe

namespace WsService

/-- `WsServer::send`, which does nothing for a client that is not connected. -/
def send (connected : Finset Int) (clientId : Int) (text : Bytes) : Multiset (Int × Bytes) :=
  if clientId ∈ connected then {(clientId, text)} else 0

/-- The text of the frame for an MQTT message. -/
def frame (dump : Json → Option Bytes) (topic payload : Bytes) : Option Bytes :=
  dump (Json.ofStrings [(Bytes.ofAscii "payload", payload), (Bytes.ofAscii "topic", topic),
    (Bytes.ofAscii "type", Bytes.ofAscii "message")])

/-- The frames sent at an MQTT message, with the clients they are sent to. -/
def bridge (dump : Json → Option Bytes) (s : WsService) (connected : Finset Int) :
    EventData → Multiset (Int × Bytes)
  | .stringPair topic payload =>
      match frame dump topic payload with
      | some text =>
          s.filterClients.keys.val.bind fun filter =>
            if topicMatches filter topic then
              (s.clientsOf filter).val.bind fun clientId => send connected clientId text
            else 0
      | none => 0
  | .empty | .string _ => 0

/-- The filters of a client that match a topic. -/
def matchingFilters (s : WsService) (clientId : Int) (topic : Bytes) : Finset Bytes :=
  (s.subsOf clientId).filter fun filter => topicMatches filter topic

/-- The number of frames sent to a client. -/
def framesTo (sent : Multiset (Int × Bytes)) (clientId : Int) : Nat :=
  (sent.map Prod.fst).count clientId

/-- One frame is sent to each connected client that has a filter matching the topic, and no
other frame. -/
def Forwards (s : WsService) (connected : Finset Int) (topic : Bytes)
    (sent : Multiset (Int × Bytes)) : Prop :=
  ∀ clientId, framesTo sent clientId
    = if clientId ∈ connected ∧ (matchingFilters s clientId topic).Nonempty then 1 else 0

/-- The serialiser throws just if the topic or the payload is not valid UTF-8. -/
theorem frame_eq_none
    {dump : Json → Option Bytes} (h : LogBroadcaster.DumpSpec dump) (topic payload : Bytes) :
  frame dump topic payload = none ↔ ¬ (Utf8.Valid topic ∧ Utf8.Valid payload)
  := by
  have hkeys : ∀ key ∈ [Bytes.ofAscii "payload", Bytes.ofAscii "topic", Bytes.ofAscii "type",
      Bytes.ofAscii "message"], Utf8.Valid key := by
    simp only [List.forall_mem_cons, List.not_mem_nil, false_imp_iff, implies_true, and_true]
    and_intros
    all_goals
      apply Utf8.valid_of_ascii
      apply Bytes.ofAscii_lt
      decide
  simp only [List.forall_mem_cons, List.not_mem_nil, false_imp_iff, implies_true,
    and_true] at hkeys
  rw [frame, h.throws]
  simp only [List.mem_cons, List.not_mem_nil, or_false, exists_eq_or_imp, exists_eq_left, hkeys,
    not_true_eq_false, false_or, or_self, or_false, not_and_or]
  apply or_comm

/-- The clients that a filter's loop sends to are its connected ones. -/
theorem map_fst_send (connected clients : Finset Int) (text : Bytes) :
  (clients.val.bind fun clientId => send connected clientId text).map Prod.fst
    = (clients.filter fun clientId => clientId ∈ connected).val
  := by
  rw [Finset.filter_val, Multiset.filter_eq_bind, Multiset.map_bind]
  apply Multiset.bind_congr
  intro clientId _
  unfold send
  split
  next => rw [Multiset.map_singleton]
  next => rw [Multiset.map_zero]

/-- A connected client gets a frame for each of its filters that matches. -/
theorem framesTo_bridge
    {dump : Json → Option Bytes} {s : WsService} (h : Consistent s) (connected : Finset Int)
    {topic payload text : Bytes} (htext : frame dump topic payload = some text)
    (clientId : Int) :
  framesTo (bridge dump s connected (.stringPair topic payload)) clientId
    = if clientId ∈ connected then (matchingFilters s clientId topic).card else 0
  := by
  have hfilter : ∀ filter,
      (Multiset.map Prod.fst (if topicMatches filter topic then
        (s.clientsOf filter).val.bind fun clientId => send connected clientId text
      else 0)).count clientId
        = if topicMatches filter topic ∧ clientId ∈ connected ∧ filter ∈ s.subsOf clientId
          then 1 else 0 := by
    intro filter
    by_cases hmatch : topicMatches filter topic
    · rw [if_pos hmatch, map_fst_send, Multiset.count_eq_of_nodup (Finset.nodup _)]
      simp only [Finset.mem_val, Finset.mem_filter, hmatch, true_and, h.inverse, and_comm]
    · simp [hmatch]
  simp only [framesTo, bridge, htext, Multiset.map_bind, Multiset.count_bind, hfilter]
  rw [← Finset.sum_eq_multiset_sum, ← Finset.card_filter]
  split
  next hconnected =>
    congr 1
    ext filter
    simp only [matchingFilters, Finset.mem_filter, Finmap.mem_keys, hconnected, true_and]
    constructor
    · rintro ⟨-, hmatch, hmem⟩
      use hmem, hmatch
    · rintro ⟨hmem, hmatch⟩
      use h.mem_filterClients hmem, hmatch, hmem
  next hconnected =>
    simp [hconnected]

/-- It is right to send nothing just if no connected client has a filter that matches. -/
theorem forwards_zero_iff {s : WsService} {connected : Finset Int} {topic : Bytes} :
  Forwards s connected topic 0
    ↔ ∀ clientId ∈ connected, matchingFilters s clientId topic = ∅
  := by
  constructor
  · intro hforwards clientId hconnected
    have hcount := hforwards clientId
    by_contra hne
    rw [if_pos ⟨hconnected, Finset.nonempty_iff_ne_empty.mpr hne⟩] at hcount
    cases hcount
  · intro hnone clientId
    rw [if_neg]
    · rfl
    · rintro ⟨hconnected, hne⟩
      apply hne.ne_empty (hnone clientId hconnected)

/-- Where the frame has a text, the frames are the right ones just if no connected client has
two filters that match. -/
theorem forwards_bridge_iff
    {dump : Json → Option Bytes} {s : WsService} (h : Consistent s) {connected : Finset Int}
    {topic payload text : Bytes} (htext : frame dump topic payload = some text) :
  Forwards s connected topic (bridge dump s connected (.stringPair topic payload))
    ↔ ∀ clientId ∈ connected, (matchingFilters s clientId topic).card ≤ 1
  := by
  unfold Forwards
  simp only [framesTo_bridge h connected htext, ← Finset.card_pos]
  apply forall_congr'
  intro clientId
  by_cases hconnected : clientId ∈ connected
  · simp only [hconnected, true_and, if_true, true_imp_iff]
    split <;> omega
  · simp [hconnected]

/-- The frames are the right ones just if no connected client has a filter that matches; or
the topic and the payload are valid UTF-8 and no connected client has two filters that
match. -/
theorem forwards_iff
    {dump : Json → Option Bytes} (h : LogBroadcaster.DumpSpec dump)
    (parse : Bytes → Option Json) (acts : List Act) (connected : Finset Int)
    (topic payload : Bytes) :
  Forwards (after parse acts) connected topic
      (bridge dump (after parse acts) connected (.stringPair topic payload))
    ↔ (∀ clientId ∈ connected, matchingFilters (after parse acts) clientId topic = ∅)
      ∨ (Utf8.Valid topic ∧ Utf8.Valid payload ∧ ∀ clientId ∈ connected,
          (matchingFilters (after parse acts) clientId topic).card ≤ 1)
  := by
  have hconsistent := consistent_after parse acts
  generalize after parse acts = s at hconsistent ⊢
  cases hframe : frame dump topic payload with
  | none =>
      have hinvalid := (frame_eq_none h topic payload).mp hframe
      have hnothing : bridge dump s connected (.stringPair topic payload) = 0 := by
        rw [bridge, hframe]
      rw [hnothing, forwards_zero_iff]
      constructor
      · apply Or.inl
      · rintro (hnone | ⟨htopic, hpayload, -⟩)
        · apply hnone
        · exfalso
          apply hinvalid ⟨htopic, hpayload⟩
  | some text =>
      have hvalid : Utf8.Valid topic ∧ Utf8.Valid payload := by
        by_contra hnot
        rw [(frame_eq_none h topic payload).mpr hnot] at hframe
        cases hframe
      rw [forwards_bridge_iff hconsistent hframe]
      constructor
      · intro hle
        right
        use hvalid.1, hvalid.2
      · rintro (hnone | ⟨-, -, hle⟩)
        · intro clientId hconnected
          rw [hnone clientId hconnected, Finset.card_empty]
          apply Nat.zero_le
        · apply hle

/-- Two clients with one filter each. -/
def twoClients : List Act :=
  [.message 0 (commandText "subscribe" "a/#"), .message 1 (commandText "subscribe" "a/+")]

/-- They get one frame each. -/
theorem forwards_iff_twoClients :
  Forwards (after (JsonText.codec 2).parse twoClients) {0, 1} (Bytes.ofAscii "a/b")
    (bridge Json.dumpStrings (after (JsonText.codec 2).parse twoClients) {0, 1}
      (.stringPair (Bytes.ofAscii "a/b") (Bytes.ofAscii "on")))
  := by
  apply (forwards_iff LogBroadcaster.dumpSpec_dumpStrings _ _ _ _ _).mpr
  right
  and_intros
  · decide
  · decide
  · decide +kernel

/-- A client with two filters that match gets two frames. -/
theorem not_forwards :
  ¬ ∀ (dump : Json → Option Bytes), LogBroadcaster.DumpSpec dump →
      ∀ (parse : Bytes → Option Json) (acts : List Act) (connected : Finset Int)
        (topic payload : Bytes),
      Forwards (after parse acts) connected topic
        (bridge dump (after parse acts) connected (.stringPair topic payload))
  := by
  intro h
  have hforwards := h Json.dumpStrings LogBroadcaster.dumpSpec_dumpStrings
    (JsonText.codec 2).parse
    [.message 0 (commandText "subscribe" "a/#"), .message 0 (commandText "subscribe" "a/+")]
    {0} (Bytes.ofAscii "a/b") (Bytes.ofAscii "on") 0
  have hframe : (frame Json.dumpStrings (Bytes.ofAscii "a/b") (Bytes.ofAscii "on")).isSome := by
    decide
  obtain ⟨text, htext⟩ := Option.isSome_iff_exists.mp hframe
  rw [framesTo_bridge (consistent_after _ _) _ htext] at hforwards
  revert hforwards
  decide +kernel

end WsService

end NexusMainframe
