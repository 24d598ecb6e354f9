import NexusMainframe.Lib.JsonText
import NexusMainframe.Lib.MultiMap
import NexusMainframe.Services.WsService

/-!
# The subscriptions over a run

The clients send messages and close their connections in any order. Over every such run the
two maps of the service are inverse to each other, and no filter is kept without a client.

A client that closes its connection is taken out of both maps. An unsubscribe command that
comes after it makes an empty entry for the client again, through `operator[]`.
-/

namespace NexusMainframe

namespace WsService

/-- The maps after the connection of a client has closed. -/
def onWsClose (s : WsService) (clientId : Int) : WsService :=
  match s.clientSubs.lookup clientId with
  | none => s
  | some filters =>
      { clientSubs := s.clientSubs.erase clientId
        filterClients := MultiMap.pruneAll s.filterClients filters clientId }

/-- What a client does. -/
inductive Act where
  | message (clientId : Int) (raw : Bytes)
  | close (clientId : Int)

/-- The maps after a client has done something. A message on which the handler throws leaves
them as they are. -/
def next (parse : Bytes → Option Json) (s : WsService) : Act → WsService
  | .message clientId raw =>
      match onWsMessage parse s clientId raw with
      | .ok (t, _) => t
      | .error _ => s
  | .close clientId => s.onWsClose clientId

/-- The maps after a run of the service, which starts without subscriptions. -/
def after (parse : Bytes → Option Json) (acts : List Act) : WsService :=
  acts.foldl (next parse) ⟨∅, ∅⟩

/-! ### Commands -/

/-- The client sends a well-formed subscribe command. -/
def Subscribes (parse : Bytes → Option Json) (clientId : Int) (a : Act) : Prop :=
  ∃ raw msg topic, a = .message clientId raw ∧ parse raw = some msg
    ∧ IsCommand (Bytes.ofAscii "subscribe") topic msg

/-- The client sends a well-formed unsubscribe command. -/
def Unsubscribes (parse : Bytes → Option Json) (clientId : Int) (a : Act) : Prop :=
  ∃ raw msg topic, a = .message clientId raw ∧ parse raw = some msg
    ∧ IsCommand (Bytes.ofAscii "unsubscribe") topic msg

/-- What a client can do to the maps. -/
theorem next_cases (parse : Bytes → Option Json) (s : WsService) (a : Act) :
  next parse s a = s
    ∨ (∃ clientId topic, Subscribes parse clientId a
        ∧ next parse s a = s.addSubscription clientId topic)
    ∨ (∃ clientId topic, Unsubscribes parse clientId a
        ∧ next parse s a = s.removeSubscription clientId topic)
    ∨ (∃ clientId, a = .close clientId ∧ next parse s a = s.onWsClose clientId)
  := by
  cases a with
  | close clientId =>
      right
      right
      right
      use clientId, rfl
      rfl
  | message clientId raw =>
      rw [next]
      split
      next t effects hok =>
        rcases onWsMessage_cases hok with
          rfl | ⟨msg, topic, hparse, hcommand, rfl⟩ | ⟨msg, topic, hparse, hcommand, rfl⟩
        · left
          rfl
        · right
          left
          use clientId, topic, ⟨raw, msg, topic, rfl, hparse, hcommand⟩
        · right
          right
          left
          use clientId, topic, ⟨raw, msg, topic, rfl, hparse, hcommand⟩
      next =>
        left
        rfl

/-! ### The two maps -/

/-- A client holds a filter just if it is in the set of the filter, and no filter has an
empty set. -/
structure Consistent (s : WsService) : Prop where
  inverse : ∀ clientId filter, filter ∈ s.subsOf clientId ↔ clientId ∈ s.clientsOf filter
  full : ∀ filter, s.filterClients.lookup filter ≠ some ∅

theorem consistent_iff {s : WsService} :
  Consistent s
    ↔ MultiMap.Inverse s.clientSubs s.filterClients ∧ MultiMap.Full s.filterClients
  := by
  constructor
  · intro h
    use h.inverse, h.full
  · rintro ⟨hinverse, hfull⟩
    use hinverse, hfull

/-- A filter that a client holds is a key of the other map. -/
theorem Consistent.mem_filterClients
    {s : WsService} (h : Consistent s) {clientId : Int} {filter : Bytes}
    (hmem : filter ∈ s.subsOf clientId) :
  filter ∈ s.filterClients
  := by
  obtain ⟨-, hfull⟩ := consistent_iff.mp h
  rw [hfull.mem_iff]
  apply Finset.ne_empty_of_mem ((h.inverse clientId filter).mp hmem)

theorem addSubscription_eq (s : WsService) (clientId : Int) (topic : Bytes) :
  s.addSubscription clientId topic
    = ⟨MultiMap.add s.clientSubs clientId topic, MultiMap.add s.filterClients topic clientId⟩
  := rfl

theorem removeSubscription_eq (s : WsService) (clientId : Int) (topic : Bytes) :
  s.removeSubscription clientId topic
    = ⟨MultiMap.remove s.clientSubs clientId topic,
        MultiMap.prune s.filterClients topic clientId⟩
  := rfl

/-- The maps after a close, where a client without an entry has the empty set of
filters. -/
theorem onWsClose_eq (s : WsService) (clientId : Int) :
  s.onWsClose clientId
    = ⟨s.clientSubs.erase clientId,
        MultiMap.pruneAll s.filterClients (s.subsOf clientId) clientId⟩
  := by
  unfold onWsClose
  cases hlookup : s.clientSubs.lookup clientId with
  | some filters => rw [subsOf, hlookup, Option.getD_some]
  | none =>
      have herase : s.clientSubs.erase clientId = s.clientSubs :=
        FiniteMap.erase_of_notMem (Finmap.lookup_eq_none.mp hlookup)
      rw [subsOf, hlookup, Option.getD_none, MultiMap.pruneAll_empty, herase]

/-- Whatever a client does keeps the maps consistent. -/
theorem consistent_next
    {parse : Bytes → Option Json} {s : WsService} (h : Consistent s) (a : Act) :
  Consistent (next parse s a)
  := by
  obtain ⟨hinverse, hfull⟩ := consistent_iff.mp h
  rw [consistent_iff]
  rcases next_cases parse s a with
    hsame | ⟨clientId, topic, -, hadd⟩ | ⟨clientId, topic, -, hremove⟩ | ⟨clientId, -, hclose⟩
  · rw [hsame]
    use hinverse, hfull
  · rw [hadd, addSubscription_eq]
    use hinverse.add clientId topic, MultiMap.full_add hfull topic clientId
  · rw [hremove, removeSubscription_eq]
    use hinverse.prune clientId topic, MultiMap.full_prune hfull topic clientId
  · rw [hclose, onWsClose_eq]
    use hinverse.erase clientId, MultiMap.full_pruneAll hfull _ clientId

theorem consistent_after (parse : Bytes → Option Json) (acts : List Act) :
  Consistent (after parse acts)
  := by
  induction acts using List.reverseRec with
  | nil => apply consistent_iff.mpr ⟨MultiMap.inverse_empty, MultiMap.full_empty⟩
  | append_singleton acts a ih =>
      rw [after, List.foldl_concat]
      apply consistent_next ih

/-! ### Clients that have closed -/

/-- A client holds no filter and is in the set of none. -/
def Unsubscribed (s : WsService) (clientId : Int) : Prop :=
  s.subsOf clientId = ∅ ∧ ∀ filter, clientId ∉ s.clientsOf filter

/-- A client occurs in neither map. -/
def Absent (s : WsService) (clientId : Int) : Prop :=
  clientId ∉ s.clientSubs ∧ ∀ filter, clientId ∉ s.clientsOf filter

theorem Consistent.unsubscribed_iff {s : WsService} (h : Consistent s) {clientId : Int} :
  Unsubscribed s clientId ↔ s.subsOf clientId = ∅
  := by
  constructor
  · intro hs
    apply hs.1
  · intro hempty
    use hempty
    intro filter
    rw [← h.inverse, hempty]
    apply Finset.notMem_empty

theorem Consistent.absent_iff {s : WsService} (h : Consistent s) {clientId : Int} :
  Absent s clientId ↔ clientId ∉ s.clientSubs
  := by
  constructor
  · intro hs
    apply hs.1
  · intro habsent
    use habsent
    apply (h.unsubscribed_iff.mpr _).2
    apply MultiMap.get_eq_empty_of_notMem habsent

theorem mem_clientSubs_onWsClose {s : WsService} {clientId clientId' : Int} :
  clientId' ∈ (s.onWsClose clientId).clientSubs ↔ clientId' ≠ clientId ∧ clientId' ∈ s.clientSubs
  := by
  rw [onWsClose_eq, Finmap.mem_erase]

theorem mem_subsOf_onWsClose {s : WsService} {clientId clientId' : Int} {filter : Bytes} :
  filter ∈ (s.onWsClose clientId).subsOf clientId'
    ↔ filter ∈ s.subsOf clientId' ∧ clientId' ≠ clientId
  := by
  rw [onWsClose_eq]
  apply MultiMap.mem_get_erase

/-- An entry of a client that a step makes is made by a command of the client. -/
theorem mem_clientSubs_next
    {parse : Bytes → Option Json} {s : WsService} {a : Act} {clientId : Int}
    (h : clientId ∈ (next parse s a).clientSubs) :
  clientId ∈ s.clientSubs ∨ Subscribes parse clientId a ∨ Unsubscribes parse clientId a
  := by
  rcases next_cases parse s a with
    hsame | ⟨c, topic, hcommand, hadd⟩ | ⟨c, topic, hcommand, hremove⟩ | ⟨c, -, hclose⟩
  · left
    rw [hsame] at h
    apply h
  · rw [hadd] at h
    rcases Finmap.mem_insert.mp h with rfl | hmem
    · right
      left
      apply hcommand
    · left
      apply hmem
  · rw [hremove] at h
    rcases Finmap.mem_insert.mp h with rfl | hmem
    · right
      right
      apply hcommand
    · left
      apply hmem
  · left
    rw [hclose] at h
    apply (mem_clientSubs_onWsClose.mp h).2

/-- A filter that a client holds after a step is one that it held, unless the step is a
subscribe command of the client. -/
theorem mem_subsOf_next
    {parse : Bytes → Option Json} {s : WsService} {a : Act} {clientId : Int} {filter : Bytes}
    (h : filter ∈ (next parse s a).subsOf clientId) :
  filter ∈ s.subsOf clientId ∨ Subscribes parse clientId a
  := by
  rcases next_cases parse s a with
    hsame | ⟨c, topic, hcommand, hadd⟩ | ⟨c, topic, -, hremove⟩ | ⟨c, -, hclose⟩
  · left
    rw [hsame] at h
    apply h
  · rw [hadd] at h
    rcases MultiMap.mem_get_add.mp h with ⟨rfl, -⟩ | hmem
    · right
      apply hcommand
    · left
      apply hmem
  · left
    rw [hremove] at h
    apply (MultiMap.mem_get_remove.mp h).1
  · left
    rw [hclose] at h
    apply (mem_subsOf_onWsClose.mp h).1

theorem after_concat (parse : Bytes → Option Json) (acts : List Act) (a : Act) :
  after parse (acts ++ [a]) = next parse (after parse acts) a
  := by
  rw [after, List.foldl_concat, after]

/-- A client that has closed its connection is absent until its next command. -/
theorem absent_after_close
    {parse : Bytes → Option Json} {before rest : List Act} {clientId : Int}
    (h : ∀ a ∈ rest, ¬ Subscribes parse clientId a ∧ ¬ Unsubscribes parse clientId a) :
  Absent (after parse (before ++ .close clientId :: rest)) clientId
  := by
  rw [(consistent_after parse _).absent_iff]
  induction rest using List.reverseRec with
  | nil =>
      rw [after_concat]
      intro hmem
      apply (mem_clientSubs_onWsClose.mp hmem).1 rfl
  | append_singleton rest a ih =>
      rw [← List.cons_append, ← List.append_assoc, after_concat]
      intro hmem
      obtain ⟨hsub, hunsub⟩ := h a (by simp)
      rcases mem_clientSubs_next hmem with hmem | hcommand | hcommand
      · apply ih _ hmem
        intro a ha
        apply h a (List.mem_append_left _ ha)
      · apply hsub hcommand
      · apply hunsub hcommand

/-- A client that has closed its connection holds no filter until its next subscribe
command. -/
theorem unsubscribed_after_close
    {parse : Bytes → Option Json} {before rest : List Act} {clientId : Int}
    (h : ∀ a ∈ rest, ¬ Subscribes parse clientId a) :
  Unsubscribed (after parse (before ++ .close clientId :: rest)) clientId
  := by
  rw [(consistent_after parse _).unsubscribed_iff, Finset.eq_empty_iff_forall_notMem]
  intro filter
  induction rest using List.reverseRec with
  | nil =>
      rw [after_concat]
      intro hmem
      apply (mem_subsOf_onWsClose.mp hmem).2 rfl
  | append_singleton rest a ih =>
      rw [← List.cons_append, ← List.append_assoc, after_concat]
      intro hmem
      rcases mem_subsOf_next hmem with hmem | hcommand
      · apply ih _ hmem
        intro a ha
        apply h a (List.mem_append_left _ ha)
      · apply h a (by simp) hcommand

/-- After every run the two maps are inverse to each other and no filter has an empty set of
clients. A client that has closed its connection occurs in neither map until its next
subscribe or unsubscribe command, and holds no filter until its next subscribe command. -/
theorem subscriptions_after
    (parse : Bytes → Option Json) (acts : List Act) :
  (∀ clientId filter, filter ∈ (after parse acts).subsOf clientId
      ↔ clientId ∈ (after parse acts).clientsOf filter)
    ∧ (∀ filter, (after parse acts).filterClients.lookup filter ≠ some ∅)
    ∧ ∀ before clientId rest, acts = before ++ .close clientId :: rest →
      ((∀ a ∈ rest, ¬ Subscribes parse clientId a ∧ ¬ Unsubscribes parse clientId a) →
        Absent (after parse acts) clientId)
      ∧ ((∀ a ∈ rest, ¬ Subscribes parse clientId a) →
        Unsubscribed (after parse acts) clientId)
  := by
  have hconsistent := consistent_after parse acts
  use hconsistent.inverse, hconsistent.full
  rintro before clientId rest rfl
  use absent_after_close, unsubscribed_after_close

/-- The text of a command with a type and a topic. -/
def commandText (type topic : String) : Bytes :=
  JsonText.print 2 0 (Json.ofStrings [(Bytes.ofAscii "topic", Bytes.ofAscii topic),
    (Bytes.ofAscii "type", Bytes.ofAscii type)])

/-- A client that unsubscribes after its connection has closed has an entry again, with the
empty set of filters. -/
theorem not_absent_until_subscribe :
  ¬ ∀ (parse : Bytes → Option Json) (before rest : List Act) (clientId : Int),
      (∀ a ∈ rest, ¬ Subscribes parse clientId a) →
        Absent (after parse (before ++ .close clientId :: rest)) clientId
  := by
  intro h
  let unsubscribe := Act.message 0 (commandText "unsubscribe" "a")
  have habsent := h (JsonText.codec 2).parse [] [unsubscribe] 0
  have htext : (JsonText.codec 2).parse (commandText "unsubscribe" "a") = some (Json.ofStrings
      [(Bytes.ofAscii "topic", Bytes.ofAscii "a"),
        (Bytes.ofAscii "type", Bytes.ofAscii "unsubscribe")]) :=
    JsonText.codec_parse_print (by decide +kernel) (by decide +kernel) 2
  have hnone : ∀ a ∈ [unsubscribe], ¬ Subscribes (JsonText.codec 2).parse 0 a := by
    rintro a ha ⟨raw, msg, topic, rfl, hparse, members, rfl, htype, -⟩
    obtain ⟨-, rfl⟩ := Act.message.inj (List.mem_singleton.mp ha)
    rw [htext] at hparse
    cases hparse
    cases htype
  apply (habsent hnone).1
  decide +kernel

end WsService

end NexusMainframe
