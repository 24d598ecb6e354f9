import NexusMainframe.Lib.Json
import Mathlib.Data.Finmap
import Mathlib.Data.Finset.Insert

/-!
# The WebSocket service

The WebSocket service keeps which client has subscribed to which topic filters, in two
maps, and changes them at the commands that clients send as JSON texts. The parser is a
parameter: `parse raw` is the value of a text, if it is one.

A text that parses is read with `json::value`, which throws on a value that is no object
and on a member that is no string. `onWsMessage` does not catch that.
-/

namespace NexusMainframe

/-- The subscriptions of a `WsService`. -/
structure WsService where
  clientSubs : Finmap fun _ : Int => Finset Bytes
  filterClients : Finmap fun _ : Bytes => Finset Int

namespace WsService

/-- What a command makes the MQTT client do. -/
inductive Effect where
  | subscribe (topic : Bytes)
  | publish (topic payload : Bytes)
deriving DecidableEq

/-- `_clientSubs[clientId]`, which makes an empty entry where there is none. -/
def subsOf (s : WsService) (clientId : Int) : Finset Bytes :=
  (s.clientSubs.lookup clientId).getD ∅

/-- `_filterClients[topic]`, which makes an empty entry where there is none. -/
def clientsOf (s : WsService) (topic : Bytes) : Finset Int :=
  (s.filterClients.lookup topic).getD ∅

/-- The maps after a subscribe command. -/
def addSubscription (s : WsService) (clientId : Int) (topic : Bytes) : WsService where
  clientSubs := s.clientSubs.insert clientId (insert topic (s.subsOf clientId))
  filterClients := s.filterClients.insert topic (insert clientId (s.clientsOf topic))

/-- The maps after an unsubscribe command. -/
def removeSubscription (s : WsService) (clientId : Int) (topic : Bytes) : WsService where
  clientSubs := s.clientSubs.insert clientId ((s.subsOf clientId).erase topic)
  filterClients :=
    if (s.clientsOf topic).erase clientId = ∅ then s.filterClients.erase topic
    else s.filterClients.insert topic ((s.clientsOf topic).erase clientId)

/-- `onWsMessage`, with the calls of the MQTT client that it makes, or the exception that
escapes it. -/
def onWsMessage (parse : Bytes → Option Json) (s : WsService) (clientId : Int) (raw : Bytes) :
    Except Json.TypeError (WsService × List Effect) :=
  match parse raw with
  | none => .ok (s, [])
  | some msg => do
      let type ← msg.value (Bytes.ofAscii "type") []
      if type = Bytes.ofAscii "subscribe" then
        let topic ← msg.value (Bytes.ofAscii "topic") []
        if topic = [] then .ok (s, [])
        else .ok (s.addSubscription clientId topic, [.subscribe topic])
      else if type = Bytes.ofAscii "unsubscribe" then
        let topic ← msg.value (Bytes.ofAscii "topic") []
        if topic = [] then .ok (s, [])
        else .ok (s.removeSubscription clientId topic, [])
      else if type = Bytes.ofAscii "publish" then
        let topic ← msg.value (Bytes.ofAscii "topic") []
        let payload ← msg.value (Bytes.ofAscii "payload") []
        .ok (s, if topic = [] then [] else [.publish topic payload])
      else .ok (s, [])

/-! ### Messages that are handled -/

/-- A well-formed subscribe or unsubscribe command: an object with that type and a topic. -/
def IsSubscription (msg : Json) : Prop :=
  ∃ members type topic, msg = .object members
    ∧ members.lookup (Bytes.ofAscii "type") = some (.string type)
    ∧ (type = Bytes.ofAscii "subscribe" ∨ type = Bytes.ofAscii "unsubscribe")
    ∧ members.lookup (Bytes.ofAscii "topic") = some (.string topic) ∧ topic ≠ []

/-- An object with a type and a topic, where the topic is not empty. -/
def IsCommand (type topic : Bytes) (msg : Json) : Prop :=
  ∃ members, msg = .object members
    ∧ members.lookup (Bytes.ofAscii "type") = some (.string type)
    ∧ members.lookup (Bytes.ofAscii "topic") = some (.string topic) ∧ topic ≠ []

/-- `onWsMessage` returns, and leaves the subscriptions as they are unless the message is
a well-formed command to change them. -/
def Handles (parse : Bytes → Option Json) (s : WsService) (clientId : Int) (raw : Bytes) :
    Prop :=
  ∃ t effects, onWsMessage parse s clientId raw = .ok (t, effects)
    ∧ ((∀ msg, parse raw = some msg → ¬ IsSubscription msg) → t = s)

/-- An object whose members are strings wherever they are read: its type; with a type of
`subscribe`, `unsubscribe` or `publish` its topic; with a type of `publish` its
payload. -/
def IsReadable (msg : Json) : Prop :=
  ∃ members, msg = .object members ∧ Json.StringOrAbsent members (Bytes.ofAscii "type")
    ∧ (∀ type, members.lookup (Bytes.ofAscii "type") = some (.string type) →
      (type = Bytes.ofAscii "subscribe" ∨ type = Bytes.ofAscii "unsubscribe"
          ∨ type = Bytes.ofAscii "publish" →
        Json.StringOrAbsent members (Bytes.ofAscii "topic"))
      ∧ (type = Bytes.ofAscii "publish" →
        Json.StringOrAbsent members (Bytes.ofAscii "payload")))

theorem IsCommand.isSubscription
    {type topic : Bytes} {msg : Json} (h : IsCommand type topic msg)
    (hcommand : type = Bytes.ofAscii "subscribe" ∨ type = Bytes.ofAscii "unsubscribe") :
  IsSubscription msg
  := by
  obtain ⟨members, rfl, htype, htopic, hne⟩ := h
  use members, type, topic, rfl, htype, hcommand, htopic, hne

theorem isCommand_of_value
    {members : List (Bytes × Json)} {type topic : Bytes} (htype : type ≠ [])
    (h : (Json.object members).value (Bytes.ofAscii "type") [] = .ok type)
    (h' : (Json.object members).value (Bytes.ofAscii "topic") [] = .ok topic)
    (htopic : topic ≠ []) :
  IsCommand type topic (.object members)
  := by
  use members, rfl, (Json.value_object_eq_string_iff htype).mp h
  use (Json.value_object_eq_string_iff htopic).mp h', htopic

variable {parse : Bytes → Option Json} {s t : WsService} {clientId : Int} {raw : Bytes}
  {effects : List Effect} {msg : Json}

/-- A message that is handled leaves the maps as they are, or is a subscribe or unsubscribe
command and changes them so. -/
theorem onWsMessage_cases (h : onWsMessage parse s clientId raw = .ok (t, effects)) :
  t = s
    ∨ (∃ msg topic, parse raw = some msg ∧ IsCommand (Bytes.ofAscii "subscribe") topic msg
        ∧ t = s.addSubscription clientId topic)
    ∨ (∃ msg topic, parse raw = some msg ∧ IsCommand (Bytes.ofAscii "unsubscribe") topic msg
        ∧ t = s.removeSubscription clientId topic)
  := by
  unfold onWsMessage at h
  split at h
  next =>
    cases h
    left
    rfl
  next msg hparse =>
    obtain ⟨type, htype, h⟩ := Json.bind_eq_ok.mp h
    obtain ⟨members, rfl⟩ := Json.exists_object_of_value htype
    split at h
    next hsub =>
      subst hsub
      obtain ⟨topic, htopic, h⟩ := Json.bind_eq_ok.mp h
      split at h
      next =>
        cases h
        left
        rfl
      next hne =>
        cases h
        right
        left
        use .object members, topic, hparse
        use isCommand_of_value (by decide) htype htopic hne
    next =>
      split at h
      next hunsub =>
        subst hunsub
        obtain ⟨topic, htopic, h⟩ := Json.bind_eq_ok.mp h
        split at h
        next =>
          cases h
          left
          rfl
        next hne =>
          cases h
          right
          right
          use .object members, topic, hparse
          use isCommand_of_value (by decide) htype htopic hne
      next =>
        left
        split at h
        next =>
          obtain ⟨topic, -, h⟩ := Json.bind_eq_ok.mp h
          obtain ⟨payload, -, h⟩ := Json.bind_eq_ok.mp h
          cases h
          rfl
        next =>
          cases h
          rfl

/-- What `IsReadable` says of an object whose type has been read. -/
theorem isReadable_object_iff
    {members : List (Bytes × Json)} {type : Bytes}
    (htype : (Json.object members).value (Bytes.ofAscii "type") [] = .ok type) :
  IsReadable (.object members)
    ↔ (type = Bytes.ofAscii "subscribe" ∨ type = Bytes.ofAscii "unsubscribe"
          ∨ type = Bytes.ofAscii "publish" →
        Json.StringOrAbsent members (Bytes.ofAscii "topic"))
      ∧ (type = Bytes.ofAscii "publish" →
        Json.StringOrAbsent members (Bytes.ofAscii "payload"))
  := by
  constructor
  · rintro ⟨_, ⟨⟩, -, h⟩
    constructor
    · intro hcommand
      have hne : type ≠ [] := by
        rcases hcommand with rfl | rfl | rfl <;> decide
      apply (h type ((Json.value_object_eq_string_iff hne).mp htype)).1 hcommand
    · intro hpublish
      have hne : type ≠ [] := by
        subst hpublish
        decide
      apply (h type ((Json.value_object_eq_string_iff hne).mp htype)).2 hpublish
  · intro h
    use members, rfl, (Json.stringOrAbsent_iff members _ []).mpr ⟨type, htype⟩
    intro type' htype'
    have heq : type' = type := by
      simp only [Json.value, htype', Except.ok.injEq] at htype
      apply htype
    rw [heq]
    apply h

/-- A message on which `onWsMessage` returns has strings where they are read. -/
theorem isReadable_of_ok
    (h : onWsMessage parse s clientId raw = .ok (t, effects)) (hparse : parse raw = some msg) :
  IsReadable msg
  := by
  rw [onWsMessage, hparse] at h
  obtain ⟨type, htype, h⟩ := Json.bind_eq_ok.mp h
  obtain ⟨members, rfl⟩ := Json.exists_object_of_value htype
  rw [isReadable_object_iff htype, Json.stringOrAbsent_iff _ _ [],
    Json.stringOrAbsent_iff _ _ []]
  constructor
  · intro hcommand
    split at h
    next =>
      obtain ⟨topic, htopic, -⟩ := Json.bind_eq_ok.mp h
      use topic
    next hsub =>
      split at h
      next =>
        obtain ⟨topic, htopic, -⟩ := Json.bind_eq_ok.mp h
        use topic
      next hunsub =>
        rw [if_pos ((hcommand.resolve_left hsub).resolve_left hunsub)] at h
        obtain ⟨topic, htopic, -⟩ := Json.bind_eq_ok.mp h
        use topic
  · rintro rfl
    rw [if_neg (by decide), if_neg (by decide), if_pos rfl] at h
    obtain ⟨topic, -, h⟩ := Json.bind_eq_ok.mp h
    obtain ⟨payload, hpayload, -⟩ := Json.bind_eq_ok.mp h
    use payload

/-- A message that has strings where they are read is handled. -/
theorem exists_ok_of_isReadable
    (h : IsReadable msg) (hparse : parse raw = some msg) (s : WsService) (clientId : Int) :
  ∃ t effects, onWsMessage parse s clientId raw = .ok (t, effects)
  := by
  obtain ⟨members, rfl, hstring, -⟩ := id h
  obtain ⟨type, htype⟩ := (Json.stringOrAbsent_iff _ _ []).mp hstring
  rw [isReadable_object_iff htype, Json.stringOrAbsent_iff _ _ [],
    Json.stringOrAbsent_iff _ _ []] at h
  obtain ⟨htopic, hpayload⟩ := h
  rw [onWsMessage, hparse]
  simp only [htype, bind, Except.bind]
  split
  next hsub =>
    obtain ⟨topic, htopic⟩ := htopic (Or.inl hsub)
    simp only [htopic]
    split <;> exact ⟨_, _, rfl⟩
  next =>
    split
    next hunsub =>
      obtain ⟨topic, htopic⟩ := htopic (Or.inr (Or.inl hunsub))
      simp only [htopic]
      split <;> exact ⟨_, _, rfl⟩
    next =>
      split
      next hpub =>
        obtain ⟨topic, htopic⟩ := htopic (Or.inr (Or.inr hpub))
        obtain ⟨payload, hpayload⟩ := hpayload hpub
        simp only [htopic, hpayload]
        exact ⟨_, _, rfl⟩
      next => exact ⟨_, _, rfl⟩

/-- A message is handled just if it does not parse or is an object with strings where they
are read. -/
theorem handles_iff
    (parse : Bytes → Option Json) (s : WsService) (clientId : Int) (raw : Bytes) :
  Handles parse s clientId raw ↔ ∀ msg, parse raw = some msg → IsReadable msg
  := by
  constructor
  · rintro ⟨t, effects, hok, -⟩ msg hparse
    apply isReadable_of_ok hok hparse
  · intro hreadable
    obtain ⟨t, effects, hok⟩ :
        ∃ t effects, onWsMessage parse s clientId raw = .ok (t, effects) := by
      cases hparse : parse raw with
      | none =>
          use s, []
          rw [onWsMessage, hparse]
      | some msg => apply exists_ok_of_isReadable (hreadable msg hparse) hparse
    use t, effects, hok
    intro hnot
    rcases onWsMessage_cases hok with
      heq | ⟨msg, topic, hparse, hcommand, -⟩ | ⟨msg, topic, hparse, hcommand, -⟩
    · apply heq
    · cases hnot msg hparse (hcommand.isSubscription (Or.inl rfl))
    · cases hnot msg hparse (hcommand.isSubscription (Or.inr rfl))

/-- The text `5` is parsed to a number, on which `json::value` throws. -/
theorem not_handles :
  ¬ ∀ (parse : Bytes → Option Json) (s : WsService) (clientId : Int) (raw : Bytes),
      Handles parse s clientId raw
  := by
  intro h
  have hfive := h (fun raw => if raw = Bytes.ofAscii "5" then some (.integer 5) else none)
    ⟨∅, ∅⟩ 0 (Bytes.ofAscii "5")
  obtain ⟨t, effects, hok, -⟩ := hfive
  simp [onWsMessage, Json.value, bind, Except.bind] at hok

end WsService

end NexusMainframe
