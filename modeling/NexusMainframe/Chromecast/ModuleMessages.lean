import NexusMainframe.Chromecast.ChromecastModule

/-!
# The messages of the Chromecast module

A reply of a receiver names the request by its id, and a receiver takes messages to an app
only from a sender that has connected to it. The ids that a device of the module puts into
its messages increase, and a `LOAD` comes after the `CONNECT` of its command: no other command comes
in between, under the mutex, though heartbeats may, and statuses. The command reads the transport
of the app once for each of the two, so that a status may separate their apps.
-/

namespace NexusMainframe

namespace ChromecastModule

open CastDevice

/-! ### Payloads -/

/-- The request id in a payload, if it has one. -/
def requestIdOf (payload : Json) : Option Int :=
  match payload.member (Bytes.ofAscii "requestId") with
  | some (.integer id) => some id
  | _ => none

/-- A payload with which an app is to load media. -/
def IsLoad (payload : Json) : Prop :=
  payload.member (Bytes.ofAscii "type") = some (.string (Bytes.ofAscii "LOAD"))

/-- The payload of a request for every id, which is no `LOAD`. -/
structure Requests (payload : Int32 → Json) : Prop where
  id : ∀ id, requestIdOf (payload id) = some id.toInt
  type : ∀ id, ¬ IsLoad (payload id)

theorem string_ne {s t : Bytes} (h : s ≠ t) :
  some (Json.string s) ≠ some (.string t)
  := by
  intro heq
  exact h (Json.string.inj (Option.some.inj heq))

theorem requests_getStatus :
  Requests getStatusJson
  where
  id _ := rfl
  type _ := string_ne (s := Bytes.ofAscii "GET_STATUS") (by decide)

theorem requests_launch :
  Requests launchJson
  where
  id _ := rfl
  type _ := string_ne (s := Bytes.ofAscii "LAUNCH") (by decide)

theorem requests_stop (sid : Bytes) :
  Requests (stopJson sid)
  where
  id _ := rfl
  type _ := string_ne (s := Bytes.ofAscii "STOP") (by decide)

theorem requests_setVolume (volume : Bytes × Json) :
  Requests (setVolumeJson volume)
  where
  id _ := rfl
  type _ := string_ne (s := Bytes.ofAscii "SET_VOLUME") (by decide)

theorem requestIdOf_call (call : Call) :
  requestIdOf call.payload = some call.requestId.toInt
  := by
  obtain ⟨command, id, mid⟩ := call
  cases command <;> rfl

theorem not_isLoad_call (call : Call) :
  ¬ IsLoad call.payload
  := by
  obtain ⟨command, id, mid⟩ := call
  cases command with
  | play => exact string_ne (s := Bytes.ofAscii "PLAY") (by decide)
  | pause => exact string_ne (s := Bytes.ofAscii "PAUSE") (by decide)
  | stopMedia => exact string_ne (s := Bytes.ofAscii "STOP") (by decide)
  | seek seconds => exact string_ne (s := Bytes.ofAscii "SEEK") (by decide)

/-! ### Logs -/

/-- The id of the request that a device has put on its channel, if it was one. -/
def Obs.requestId : Obs → Option Int
  | .sent _ payload => requestIdOf payload
  | .begun | .took _ | .published _ | .undefined => none

/-- The request ids of what was sent, in order. -/
def ids (log : List Obs) : List Int :=
  log.filterMap Obs.requestId

/-- What a command has put on the channel; heartbeats are of no command. -/
def Obs.ofCommand : Obs → Option CastMessage
  | .sent msg _ => if msg.namespaceUri = CastChannel.nsHeartbeat then none else some msg
  | .begun | .took _ | .published _ | .undefined => none

/-- The command that began last has put just `msgs` on the channel, heartbeats apart; and `app` is
`dest` unless the device has taken over a status of the receiver since the command began. -/
def Since (log : List Obs) (msgs : List CastMessage) (app dest : Bytes) : Prop :=
  ∃ front since, log = front ++ .begun :: since ∧ .begun ∉ since
    ∧ since.filterMap Obs.ofCommand = msgs
    ∧ (app = dest ∨ ∃ status, .took status ∈ since)

/-- Every `LOAD` comes, in its command, after the `CONNECT` to its app, and after nothing else. -/
def LoadsFollow (log : List Obs) : Prop :=
  ∀ pre msg payload post, log = pre ++ .sent msg payload :: post → IsLoad payload →
    ∃ app, Since pre [connectMessage app] app msg.destinationId

/-- A command reads the transport when it begins. -/
theorem Since.begun (log : List Obs) (app : Bytes) :
  Since (log ++ [.begun]) [] app app
  := by
  use log, []
  exact ⟨rfl, List.not_mem_nil, rfl, .inl rfl⟩

/-- After a status the transport may be any. -/
theorem Since.concat
    {log : List Obs} {msgs : List CastMessage} {app dest dest' : Bytes}
    (h : Since log msgs app dest) {o : Obs} (ho : o ≠ .begun)
    (hdest : dest' = dest ∨ ∃ status, o = .took status) :
  Since (log ++ [o]) (msgs ++ o.ofCommand.toList) app dest'
  := by
  obtain ⟨front, since, rfl, hsince, rfl, happ⟩ := h
  refine ⟨front, since ++ [o], by simp, ?_, ?_, ?_⟩
  · simpa [hsince] using ho.symm
  · rw [List.filterMap_append]
    cases h : o.ofCommand <;> simp [h]
  · rcases hdest with rfl | ⟨status, rfl⟩
    · apply happ.imp_right
      rintro ⟨status, hstatus⟩
      exact ⟨status, List.mem_append_left _ hstatus⟩
    · right
      exact ⟨status, by simp⟩

theorem LoadsFollow.concat
    {log : List Obs} (h : LoadsFollow log) {o : Obs}
    (ho : ∀ msg payload, o = .sent msg payload → IsLoad payload →
      ∃ app, Since log [connectMessage app] app msg.destinationId) :
  LoadsFollow (log ++ [o])
  := by
  intro pre msg payload post hlog hload
  rcases Lts.concat_eq_append_cons.mp hlog with ⟨rfl, rfl, hlast⟩ | ⟨post, rfl, hpre⟩
  · exact ho msg payload hlast.symm hload
  · exact h pre msg payload post hpre hload

theorem ids_concat (log : List Obs) (o : Obs) :
  ids (log ++ [o]) = ids log ++ o.requestId.toList
  := by
  rw [ids, List.filterMap_append, ids]
  cases h : o.requestId <;> simp [h]

/-- What belongs to no command: a status that is taken over, an event that is published, or a
heartbeat. -/
def Obs.Aside : Obs → Prop
  | .took _ | .published _ => True
  | .sent msg payload => msg.namespaceUri = CastChannel.nsHeartbeat
      ∧ (payload = heartbeatJson "PING" ∨ payload = heartbeatJson "PONG")
  | .begun | .undefined => False

theorem Obs.Aside.requestId {o : Obs} (h : o.Aside) :
  o.requestId = none
  := by
  cases o with
  | sent msg payload =>
      obtain ⟨-, rfl | rfl⟩ := h <;> rfl
  | took | published => rfl
  | begun | undefined => cases h

theorem Obs.Aside.ofCommand {o : Obs} (h : o.Aside) :
  o.ofCommand = none
  := by
  cases o with
  | sent msg payload => rw [Obs.ofCommand, if_pos h.1]
  | took | published => rfl
  | begun | undefined => cases h

theorem Obs.Aside.not_isLoad
    {msg : CastMessage} {payload : Json} (h : (Obs.sent msg payload).Aside) :
  ¬ IsLoad payload
  := by
  obtain ⟨-, rfl | rfl⟩ := h
  · exact string_ne (s := Bytes.ofAscii "PING") (by decide)
  · exact string_ne (s := Bytes.ofAscii "PONG") (by decide)

theorem Since.aside
    {log : List Obs} {msgs : List CastMessage} {app dest dest' : Bytes}
    (h : Since log msgs app dest) {o : Obs} (ho : o.Aside)
    (hdest : dest' = dest ∨ ∃ status, o = .took status) :
  Since (log ++ [o]) msgs app dest'
  := by
  have hne : o ≠ .begun := by
    rintro rfl
    exact ho
  have hconcat := h.concat hne hdest
  rwa [ho.ofCommand, Option.toList_none, List.append_nil] at hconcat

/-! ### Devices -/

/-- The id of a request that is still to be sent. -/
def Pending.requestId (p : Pending) : Option Int :=
  requestIdOf p.payload

/-- The request ids of a device: of what it has sent, and of what it is about to send. -/
def Entry.ids (e : Entry) : List Int :=
  ChromecastModule.ids e.log ++ e.pending.filterMap Pending.requestId

theorem Entry.ids_of_free (e : Entry) (hfree : e.pending = []) :
  e.ids = ChromecastModule.ids e.log
  := by
  simp [Entry.ids, hfree]

/-- Where a device stands in a `loadMedia`, if it is in one. -/
inductive Loading (d : CastDevice) (log : List Obs) : List Pending → Prop where
  | other {pending} (h : ∀ p ∈ pending, ¬ IsLoad p.payload) : Loading d log pending
  | connect {app payload} (h : Since log [] app d.transportId) :
      Loading d log [.connect app, .media payload]
  | load {payload}
      (h : Opened d → ∃ app, Since log [connectMessage app] app d.transportId) :
      Loading d log [.media payload]

/-- What holds of a device that has had at most `n` request ids, in any state of a run. -/
structure Orderly (n : Nat) (e : Entry) : Prop where
  nonneg : 0 ≤ e.device.requestId.toInt
  count : e.device.requestId.toInt ≤ n
  increasing : e.ids.Pairwise (· < ·)
  le : ∀ id ∈ e.ids, id ≤ e.device.requestId.toInt
  defined : .undefined ∉ e.log
  there : e.device.transportId ≠ [] → e.device.channel ≠ none
  connects : ∀ dest, .connect dest ∈ e.pending → e.device.channel ≠ none
  loads : LoadsFollow e.log
  loading : Loading e.device e.log e.pending

section

variable {env : Env} {d : CastDevice} {log : List Obs} {p : Pending} {pending : List Pending}

/-- A message is put on the channel when it is its turn, or is not. -/
theorem Pending.send_cases
    (env : Env) (hthere : ∀ dest, p = .connect dest → d.channel ≠ none) :
  p.send env d = [] ∨ ∃ msg, p.send env d = [.sent msg p.payload]
  := by
  cases p with
  | connect dest =>
      rw [Pending.send, if_neg (hthere dest rfl)]
      split
      next => exact .inr ⟨_, rfl⟩
      next => exact .inl rfl
  | receiver payload =>
      rw [Pending.send]
      cases d.sendReceiverMsg env payload with
      | none => exact .inl rfl
      | some msg => exact .inr ⟨msg, rfl⟩
  | media payload =>
      rw [Pending.send]
      cases d.sendMediaMsg env payload with
      | none => exact .inl rfl
      | some msg => exact .inr ⟨msg, rfl⟩

theorem not_isLoad_connect :
  ¬ IsLoad connectJson
  :=
  string_ne (s := Bytes.ofAscii "CONNECT") (by decide)

/-- The messages of a `loadMedia` are sent one after the other. -/
theorem Loading.send
    (h : Loading d log (p :: pending)) (hthere : ∀ dest, p = .connect dest → d.channel ≠ none) :
  Loading d (log ++ p.send env d) pending
  := by
  cases h with
  | other h =>
      apply Loading.other
      intro q hq
      exact h q (List.mem_cons_of_mem _ hq)
  | connect hsince =>
      apply Loading.load
      intro hopened
      rw [Pending.send, if_neg (hthere _ rfl), if_pos hopened]
      exact ⟨_, hsince.concat nofun (.inl rfl)⟩
  | load h =>
      apply Loading.other
      intro q hq
      cases hq

/-- The `LOAD` is sent after the `CONNECT`. -/
theorem LoadsFollow.send
    (hloads : LoadsFollow log) (h : Loading d log (p :: pending))
    (hthere : ∀ dest, p = .connect dest → d.channel ≠ none) :
  LoadsFollow (log ++ p.send env d)
  := by
  rcases Pending.send_cases env hthere with hnone | ⟨msg, hsent⟩
  · rw [hnone, List.append_nil]
    exact hloads
  · rw [hsent]
    apply hloads.concat
    intro msg' payload ho hl
    obtain ⟨rfl, rfl⟩ := Obs.sent.inj ho
    cases h with
    | other h => exact absurd hl (h p List.mem_cons_self)
    | connect hsince => exact absurd hl not_isLoad_connect
    | load h =>
        rw [Pending.send, Option.toList_eq_singleton_iff, Option.map_eq_some_iff] at hsent
        obtain ⟨msg', hmsg, heq⟩ := hsent
        obtain ⟨rfl, -⟩ := Obs.sent.inj heq
        obtain ⟨hopened, -, rfl⟩ := sendMediaMsg_eq_some.mp hmsg
        exact h hopened

/-- What belongs to no command comes in between, and a status may change the transport. -/
theorem Loading.aside
    (h : Loading d log pending) {o : Obs} (ho : o.Aside) (hopened : Opened d) {d' : CastDevice}
    (htransport : d'.transportId = d.transportId ∨ ∃ status, o = .took status) :
  Loading d' (log ++ [o]) pending
  := by
  cases h with
  | other h => exact .other h
  | connect hsince => exact .connect (hsince.aside ho htransport)
  | load h =>
      apply Loading.load
      intro _
      obtain ⟨app, hsince⟩ := h hopened
      exact ⟨app, hsince.aside ho htransport⟩

end

section

variable {env : Env} {n : Nat} {e u : Entry}

theorem Orderly.init (host : Bytes) (port : Int32) :
  Orderly 0 { host, port }
  where
  nonneg := le_rfl
  count := le_rfl
  increasing := List.Pairwise.nil
  le id hid := by cases hid
  defined h := by cases h
  there h := absurd rfl h
  connects dest h := by cases h
  loads pre msg payload post h := by simp at h
  loading := .other nofun

theorem Orderly.mono (h : Orderly n e) {m : Nat} (hm : n ≤ m) :
  Orderly m e
  := { h with count := h.count.trans (by exact_mod_cast hm) }

/-- The next id, while the counter does not wrap around. -/
theorem Orderly.next_id (h : Orderly n e) (hn : n + 1 < 2 ^ 31) :
  (e.device.requestId + 1).toInt = e.device.requestId.toInt + 1
  := by
  have hnonneg := h.nonneg
  have hcount := h.count
  have hone : (1 : Int32).toInt = 1 := by decide
  rw [Int32.toInt_add, hone, Int.bmod_eq_of_le] <;> omega

/-- A device gets another channel. -/
theorem Orderly.channel
    (h : Orderly n e) (hfree : e.pending = []) (channel : Option Link) (hchannel : channel ≠ none) :
  Orderly n { e with device := { e.device with channel } }
  := { h with
    there := fun _ => hchannel
    connects := fun _ _ => hchannel
    loading := .other (by simp [hfree]) }

/-- A command begins, with messages to send. -/
theorem Orderly.start
    (h : Orderly n e) {pending : List Pending}
    (hincreasing : (ids e.log ++ pending.filterMap Pending.requestId).Pairwise (· < ·))
    (hle : ∀ id ∈ pending.filterMap Pending.requestId, id ≤ e.device.requestId.toInt)
    (hconnects : ∀ dest, .connect dest ∈ pending → e.device.channel ≠ none)
    (hloading : Loading e.device (e.log ++ [.begun]) pending) :
  Orderly n (e.start pending)
  := by
  have hids : (e.start pending).ids = ids e.log ++ pending.filterMap Pending.requestId := by
    rw [Entry.ids, Entry.start, ids_concat]
    simp [Obs.requestId]
  constructor
  · exact h.nonneg
  · exact h.count
  · rw [hids]
    exact hincreasing
  · rw [hids]
    intro id hid
    rcases List.mem_append.mp hid with hid | hid
    · exact h.le id (List.mem_append_left _ hid)
    · exact hle id hid
  · simpa [Entry.start] using h.defined
  · exact h.there
  · exact hconnects
  · exact h.loads.concat nofun
  · exact hloading

/-- A command takes the next id for a message that it is about to send. -/
theorem Orderly.begin
    (h : Orderly n e) (hn : n + 1 < 2 ^ 31) (hfree : e.pending = [])
    (pending : Int32 → List Pending)
    (hid : ∀ id, (pending id).filterMap Pending.requestId = [id.toInt])
    (hconnects : ∀ id dest, .connect dest ∈ pending id → e.device.channel ≠ none)
    (hloading : ∀ id,
      Loading { e.device with requestId := id } (e.log ++ [.begun]) (pending id)) :
  Orderly (n + 1) (e.begin pending)
  := by
  have hnext := h.next_id hn
  have hnonneg := h.nonneg
  have hcount := h.count
  have hids := e.ids_of_free hfree
  have hlt : ∀ id ∈ ids e.log, id < (e.device.requestId + 1).toInt := by
    intro id hid
    have hle := h.le id (hids ▸ hid)
    omega
  have hcounted :
      Orderly (n + 1) { e with device := { e.device with requestId := e.device.requestId + 1 } } :=
    { h with
      nonneg := by
        dsimp only
        omega
      count := by
        dsimp only
        push_cast
        omega
      le := fun id hid => (hlt id (hids ▸ hid)).le
      loading := .other (by simp [hfree]) }
  apply hcounted.start
  · rw [hid, List.pairwise_append]
    use hids ▸ h.increasing, List.pairwise_singleton _ _
    intro id hid id' hid'
    rw [List.mem_singleton.mp hid']
    exact hlt id hid
  · rw [hid]
    intro id hid
    rw [List.mem_singleton.mp hid]
  · exact hconnects _
  · exact hloading _

/-- The next message of a command is put on the channel, or is not. -/
theorem Orderly.send
    (h : Orderly n e) {p : Pending} {pending : List Pending} (hp : e.pending = p :: pending) :
  Orderly n { e with pending, log := e.log ++ p.send env e.device }
  := by
  have hthere : ∀ dest, p = .connect dest → e.device.channel ≠ none := by
    rintro dest rfl
    apply h.connects dest
    simp [hp]
  have hloading := hp ▸ h.loading
  have hids : (ids (e.log ++ p.send env e.device)
      ++ pending.filterMap Pending.requestId).Sublist e.ids := by
    have hids : e.ids = ids e.log ++ (p.requestId.toList
        ++ pending.filterMap Pending.requestId) := by
      rw [Entry.ids, hp]
      cases hid : p.requestId <;> simp [hid]
    rw [hids]
    rcases Pending.send_cases env hthere with hnone | ⟨msg, hsent⟩
    · rw [hnone, List.append_nil, List.append_sublist_append_left]
      exact List.sublist_append_right _ _
    · rw [hsent, ids_concat, List.append_assoc]
      exact List.Sublist.refl _
  constructor
  · exact h.nonneg
  · exact h.count
  · exact h.increasing.sublist hids
  · intro id hid
    exact h.le id (hids.subset hid)
  · have hdefined := h.defined
    rcases Pending.send_cases env hthere with hnone | ⟨msg, hsent⟩
    · simpa [hnone] using hdefined
    · simpa [hsent] using hdefined
  · exact h.there
  · intro dest hdest
    apply h.connects dest
    rw [hp]
    exact List.mem_cons_of_mem _ hdest
  · exact h.loads.send hloading hthere
  · exact hloading.send hthere

/-- A request to the receiver. -/
theorem Orderly.request
    (h : Orderly n e) (hn : n + 1 < 2 ^ 31) (hfree : e.pending = [])
    {payload : Int32 → Json} (hpayload : Requests payload) :
  Orderly (n + 1) (e.request payload)
  := by
  apply h.begin hn hfree fun id => [.receiver (payload id)]
  · intro id
    simp [Pending.requestId, Pending.payload, hpayload.id id]
  · simp
  · intro id
    apply Loading.other
    simpa [Pending.payload] using hpayload.type id

theorem Orderly.connect
    (h : Orderly n e) (hn : n + 1 < 2 ^ 31) (hfree : e.pending = []) (outcome : Outcome) :
  Orderly (n + 1) (e.connect outcome)
  := by
  have hup := h.channel hfree (some .up) nofun
  cases outcome with
  | failed => exact (h.channel hfree (some .unconnected) nofun).mono (Nat.le_succ n)
  | refused =>
      apply Orderly.mono _ (Nat.le_succ n)
      apply hup.start
      · have hnone : [Pending.connect receiverId].filterMap Pending.requestId = [] := rfl
        rw [hnone, List.append_nil]
        exact e.ids_of_free hfree ▸ h.increasing
      · nofun
      · nofun
      · apply Loading.other
        simpa [Pending.payload] using not_isLoad_connect
  | connected =>
      apply hup.begin hn hfree fun id => [.connect receiverId, .receiver (getStatusJson id)]
      · intro id
        rfl
      · nofun
      · intro id
        apply Loading.other
        simpa [Pending.payload] using ⟨not_isLoad_connect, requests_getStatus.type id⟩

theorem Orderly.loadMedia
    (h : Orderly n e) (hn : n + 1 < 2 ^ 31) (hfree : e.pending = [])
    (url contentType title : Bytes) :
  Orderly (n + 1) (e.loadMedia url contentType title)
  := by
  unfold Entry.loadMedia
  split
  next => exact h.mono (Nat.le_succ n)
  next htransport =>
    apply h.begin hn hfree fun id =>
      [.connect e.device.transportId, .media (loadJson url contentType title id)]
    · intro id
      rfl
    · intro _ _ _
      exact h.there htransport
    · intro id
      exact .connect (.begun _ _)

theorem Orderly.execute
    (h : Orderly n e) (hn : n + 1 < 2 ^ 31) (hfree : e.pending = []) (connected : Bool)
    (outcome : Outcome) (command : Command) :
  Orderly (n + 1) (e.execute connected outcome command)
  := by
  cases command with
  | connect =>
      rw [Entry.execute]
      split
      next => exact h.mono (Nat.le_succ n)
      next => exact h.connect hn hfree outcome
  | disconnect =>
      rw [Entry.execute, CastDevice.disconnect]
      split
      next => exact h.mono (Nat.le_succ n)
      next =>
        apply Orderly.mono _ (Nat.le_succ n)
        exact
          { h with
            there := fun hne => absurd rfl hne
            connects := by simp [hfree]
            loading := .other (by simp [hfree]) }
  | getStatus => exact h.request hn hfree requests_getStatus
  | launchMediaReceiver => exact h.request hn hfree requests_launch
  | stopApp =>
      rw [Entry.execute]
      split
      next => exact h.mono (Nat.le_succ n)
      next => exact h.request hn hfree (requests_stop _)
  | media command =>
      rw [Entry.execute]
      split
      next => exact h.mono (Nat.le_succ n)
      next call device hbegin =>
        unfold CastDevice.begin at hbegin
        split at hbegin
        next => cases hbegin
        next =>
          cases hbegin
          apply h.begin hn hfree fun id =>
            [.media (Call.payload ⟨command, id, e.device.mediaSessionId⟩)]
          · intro id
            simp [Pending.requestId, Pending.payload, requestIdOf_call]
          · simp
          · intro id
            apply Loading.other
            simpa [Pending.payload] using not_isLoad_call _
  | setVolume level => exact h.request hn hfree (requests_setVolume _)
  | setMuted muted => exact h.request hn hfree (requests_setVolume _)
  | loadMedia url contentType title => exact h.loadMedia hn hfree url contentType title

/-- A device does what belongs to no command, and its transport changes only with a status. -/
theorem Orderly.aside
    (h : Orderly n e) {device : CastDevice} {o : Obs} (ho : o.Aside)
    (hid : device.requestId = e.device.requestId) (hthere : device.channel ≠ none)
    (hopened : Opened e.device)
    (htransport : device.transportId = e.device.transportId ∨ ∃ status, o = .took status) :
  Orderly n { e with device, log := e.log ++ [o] }
  := by
  have hids : ids (e.log ++ [o]) = ids e.log := by
    rw [ids_concat, ho.requestId]
    exact List.append_nil _
  constructor
  · rw [hid]
    exact h.nonneg
  · rw [hid]
    exact h.count
  · rw [Entry.ids, hids]
    exact h.increasing
  · rw [Entry.ids, hids, hid]
    exact h.le
  · cases o <;> simp_all [Obs.Aside, h.defined]
  · intro _
    exact hthere
  · intro _ _
    exact hthere
  · apply h.loads.concat
    rintro msg payload rfl hl
    exact absurd hl ho.not_isLoad
  · exact h.loading.aside ho hopened htransport

theorem Orderly.step
    (h : Orderly n e) (hn : n + 1 < 2 ^ 31) {a : Entry.Act} (hstep : Entry.Step env e a u) :
  Orderly (n + 1) u
  := by
  have hopened : Opened e.device → e.device.channel ≠ none := by
    rintro (hup | hlost) hnone
    · cases hup.symm.trans hnone
    · cases hlost.symm.trans hnone
  have hup : e.device.channel = some .up → e.device.channel ≠ none :=
    fun hup => hopened (.inl hup)
  cases hstep with
  | nothing => exact h.mono (Nat.le_succ n)
  | execute command connected outcome hfree =>
      exact h.execute hn hfree connected outcome command
  | send p pending hp => exact (h.send hp).mono (Nat.le_succ n)
  | pong msg up =>
      apply Orderly.mono _ (Nat.le_succ n)
      exact h.aside ⟨rfl, .inr rfl⟩ rfl (hup up) (.inl up) (.inl rfl)
  | heartbeat opened =>
      apply Orderly.mono _ (Nat.le_succ n)
      exact h.aside ⟨rfl, .inl rfl⟩ rfl (hopened opened) opened (.inl rfl)
  | ignored => exact h.mono (Nat.le_succ n)
  | receiver msg status up =>
      apply Orderly.mono _ (Nat.le_succ n)
      have htook : Orderly n { e with
          device := e.device.takeReceiverStatus status, log := e.log ++ [.took status] } :=
        h.aside trivial rfl (hup up) (.inl up) (.inr ⟨status, rfl⟩)
      rw [← List.singleton_append, ← List.append_assoc]
      exact htook.aside trivial rfl (hup up) (.inl up) (.inl rfl)
  | media msg status up =>
      apply Orderly.mono _ (Nat.le_succ n)
      exact h.aside trivial rfl (hup up) (.inl up) (.inl rfl)
  | lose up =>
      apply Orderly.mono _ (Nat.le_succ n)
      exact h.aside trivial rfl (Option.some_ne_none Link.lost) (.inl up) (.inl rfl)

end

/-! ### Runs -/

section

variable {env : Env} {s t : ChromecastModule} {n : Nat}

/-- Every device of the module is orderly. -/
def AllOrderly (n : Nat) (s : ChromecastModule) : Prop :=
  ∀ k e, s.devices.lookup k = some e → Orderly n e

theorem AllOrderly.insert
    (h : AllOrderly n s) {k : Bytes} {u : Entry} (hu : Orderly (n + 1) u) {busy : Option Bytes} :
  AllOrderly (n + 1) { devices := s.devices.insert k u, busy := busy }
  := by
  intro k' e' he'
  rcases FiniteMap.lookup_insert_eq_some.mp he' with ⟨-, rfl⟩ | ⟨-, he'⟩
  · exact hu
  · exact (h k' e' he').mono (Nat.le_succ n)

theorem AllOrderly.update
    (h : AllOrderly n s) (hn : n + 1 < 2 ^ 31) {k : Bytes} {a : Entry.Act}
    (hstep : update env s k a = some t) :
  AllOrderly (n + 1) t
  := by
  obtain ⟨e, u, he, hu, rfl⟩ := update_eq_some hstep
  exact h.insert ((h k e he).step hn (Entry.Step.of_step hu))

theorem AllOrderly.step
    (h : AllOrderly n s) (hn : n + 1 < 2 ^ 31) {a : Act} (hstep : step env s a = some t) :
  AllOrderly (n + 1) t
  := by
  cases a with
  | command data connected outcome =>
      obtain ⟨-, ⟨-, rfl⟩ | ⟨q, u, -, hu, rfl⟩⟩ := step_command hstep
      · intro k e he
        exact (h k e he).mono (Nat.le_succ n)
      · apply h.insert
        apply Orderly.step _ hn (Entry.Step.of_step hu)
        cases hlookup : s.devices.lookup (key q.host q.port) with
        | none => exact (Orderly.init q.host q.port).mono (Nat.zero_le n)
        | some e => exact h _ e hlookup
  | send k =>
      simp only [ChromecastModule.step, Option.ite_none_right_eq_some,
        Option.map_eq_some_iff] at hstep
      obtain ⟨-, t', ht', rfl⟩ := hstep
      have hupdate := h.update hn ht'
      exact hupdate
  | receive k msg => exact h.update hn hstep
  | heartbeat k | lose k => exact h.update hn hstep
  | shutdown =>
      simp only [ChromecastModule.step, Option.ite_none_left_eq_some, Option.some.injEq] at hstep
      obtain ⟨-, rfl⟩ := hstep
      intro k e he
      simp [init] at he

/-- In every run of fewer than `2 ^ 31` steps, with commands for any devices and statuses and
heartbeats in between: what a device has put on its channel has increasing request ids; the
command of every `LOAD` has sent just a `CONNECT` before it, to the app that the `LOAD` is for
unless the device has taken over a status of the receiver since the command began; and no null
pointer is dereferenced. -/
theorem messages_of_run
    {acts : List Act} (h : Lts.run (step env) init acts = some s) (hlen : acts.length < 2 ^ 31)
    {k : Bytes} {e : Entry} (he : s.devices.lookup k = some e) :
  (ids e.log).Pairwise (· < ·) ∧ LoadsFollow e.log ∧ .undefined ∉ e.log
  := by
  have hall : acts.length < 2 ^ 31 → AllOrderly acts.length s := by
    apply Lts.run_induction (P := fun as s => as.length < 2 ^ 31 → AllOrderly as.length s) _ _ h
    · intro _ k e he
      simp [init] at he
    · intro as t a u _ ht hu hlen
      rw [List.length_append, List.length_singleton] at hlen ⊢
      exact (ht (by omega)).step hlen hu
  have horderly := hall hlen k e he
  use horderly.increasing.sublist (List.sublist_append_left _ _)
  exact ⟨horderly.loads, horderly.defined⟩

/-- The type of the last message that a device has sent, if it has done nothing since. -/
def lastType (log : List Obs) : Option Bytes :=
  log.getLast?.bind fun
    | .sent _ payload => (payload.member (Bytes.ofAscii "type")).bind Json.asString
    | .begun | .took _ | .published _ | .undefined => none

theorem exists_load_of_lastType {log : List Obs} (h : lastType log = some (Bytes.ofAscii "LOAD")) :
  ∃ pre msg payload, log = pre ++ [.sent msg payload] ∧ IsLoad payload
  := by
  obtain ⟨o, ho, htype⟩ := Option.bind_eq_some_iff.mp h
  obtain ⟨pre, rfl⟩ := List.getLast?_eq_some_iff.mp ho
  cases o with
  | sent msg payload =>
      obtain ⟨j, hj, hstring⟩ := Option.bind_eq_some_iff.mp htype
      use pre, msg, payload, rfl
      cases j with
      | string s =>
          cases hstring
          exact hj
      | _ => cases hstring
  | begun | took _ | published _ | undefined => cases htype

/-- The television sends the LOAD last, with heartbeats before and after the CONNECT of its
command. -/
theorem messages_of_run_loading :
  ∃ s e pre msg payload, Lts.run (step session) init loading = some s
    ∧ s.devices.lookup tv = some e
    ∧ e.log = pre ++ [.sent msg payload] ∧ IsLoad payload ∧ pre.length = 9
    ∧ (ids e.log).Pairwise (· < ·) ∧ LoadsFollow e.log ∧ .undefined ∉ e.log
  := by
  obtain ⟨s, hs⟩ := exists_run_loading
  have hdevice : ((Lts.run (step session) init loading).bind fun s =>
      (s.devices.lookup tv).map fun e => (lastType e.log, e.log.length))
        = some (some (Bytes.ofAscii "LOAD"), 10) := by decide +kernel
  rw [hs, Option.bind_some] at hdevice
  obtain ⟨e, he, hlog⟩ := Option.map_eq_some_iff.mp hdevice
  obtain ⟨htype, hlength⟩ := Prod.mk.inj hlog
  obtain ⟨pre, msg, payload, hpre, hload⟩ := exists_load_of_lastType htype
  have hnine : pre.length = 9 := by simpa [hpre] using hlength
  exact ⟨s, e, pre, msg, payload, hs, he, hpre, hload, hnine, messages_of_run hs (by decide) he⟩

end

end ChromecastModule

end NexusMainframe
