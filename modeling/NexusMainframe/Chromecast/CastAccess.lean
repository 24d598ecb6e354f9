import NexusMainframe.Chromecast.CastDevice
import NexusMainframe.Lib.JsonAccess

/-!
# The accesses of the message handlers

The handlers of a cast device with every access to the payload as it stands in the source, each
of which comes to a value, throws, or is undefined. What throws is caught. The one access that
can be undefined is that to the status of a receiver's status message that has none; without it
a message is taken over as a whole or not at all.
-/

namespace NexusMainframe

namespace CastDevice

open Json (Access constAt constIndex contains valueOr)

variable (env : Env)

/-! ### The handlers -/

/-- The part of a receiver status on the volume. -/
def volumeStatus (s : Json) (status : ReceiverStatus) : Access ReceiverStatus :=
  if contains (Bytes.ofAscii "volume") s then do
    let volumeLevel ← valueOr (Json.asDouble env.widen) (Bytes.ofAscii "level") 0x3FF0000000000000
      (← constAt (Bytes.ofAscii "volume") s)
    let muted ← valueOr Json.asBoolean (Bytes.ofAscii "muted") false
      (← constAt (Bytes.ofAscii "volume") s)
    return { status with volumeLevel, muted }
  else return status

/-- The condition for an app. -/
def hasApp (s : Json) : Access Bool :=
  if contains (Bytes.ofAscii "applications") s then do
    return !isEmpty (← constAt (Bytes.ofAscii "applications") s)
  else return false

/-- The part of a receiver status on the first app, or that there is none. -/
def appStatus (s : Json) (status : ReceiverStatus) : Access ReceiverStatus := do
  if ← hasApp s then
    let app ← constIndex 0 (← constAt (Bytes.ofAscii "applications") s)
    let sessionId ← valueOr Json.asString (Bytes.ofAscii "sessionId") [] app
    let transportId ← valueOr Json.asString (Bytes.ofAscii "transportId") [] app
    let appId ← valueOr Json.asString (Bytes.ofAscii "appId") [] app
    let displayName ← valueOr Json.asString (Bytes.ofAscii "displayName") [] app
    let isIdleScreen ← valueOr Json.asBoolean (Bytes.ofAscii "isIdleScreen") false app
    return { status with sessionId, transportId, appId, displayName, isIdleScreen }
  else return { status with isIdleScreen := true }

/-- The status that `handleReceiverStatus` takes over, if it does not return before. -/
def receiverStatus (j : Json) : Access (Option ReceiverStatus) := do
  let type ← valueOr Json.asString (Bytes.ofAscii "type") [] j
  if type ≠ Bytes.ofAscii "RECEIVER_STATUS" then return none
  else
    let s ← constAt (Bytes.ofAscii "status") j
    let status ← volumeStatus env s {}
    let status ← appStatus s status
    return some status

/-- The part of a media status on the metadata. -/
def titleStatus (m : Json) (status : MediaStatus) : Access MediaStatus :=
  if contains (Bytes.ofAscii "metadata") m then do
    let title ← valueOr Json.asString (Bytes.ofAscii "title") []
      (← constAt (Bytes.ofAscii "metadata") m)
    return { status with title }
  else return status

/-- The part of a media status on the media. -/
def contentStatus (ms : Json) (status : MediaStatus) : Access MediaStatus :=
  if contains (Bytes.ofAscii "media") ms then do
    let m ← constAt (Bytes.ofAscii "media") ms
    let contentId ← valueOr Json.asString (Bytes.ofAscii "contentId") [] m
    let contentType ← valueOr Json.asString (Bytes.ofAscii "contentType") [] m
    let duration ← valueOr (Json.asDouble env.widen) (Bytes.ofAscii "duration") 0 m
    titleStatus m { status with contentId, contentType, duration }
  else return status

/-- The condition for a media status. -/
def hasStatus (j : Json) : Access Bool :=
  if contains (Bytes.ofAscii "status") j then do
    return !isEmpty (← constAt (Bytes.ofAscii "status") j)
  else return false

/-- The status that `handleMediaStatus` takes over, if it does not return before. -/
def mediaStatus (j : Json) : Access (Option MediaStatus) := do
  let type ← valueOr Json.asString (Bytes.ofAscii "type") [] j
  if type ≠ Bytes.ofAscii "MEDIA_STATUS" then return none
  else if ← hasStatus j then
    let ms ← constIndex 0 (← constAt (Bytes.ofAscii "status") j)
    let sessionId ← valueOr (Json.asInt32 env.truncate) (Bytes.ofAscii "mediaSessionId") (-1) ms
    let playerState ← valueOr Json.asString (Bytes.ofAscii "playerState")
      (Bytes.ofAscii "UNKNOWN") ms
    let currentTime ← valueOr (Json.asDouble env.widen) (Bytes.ofAscii "currentTime") 0 ms
    let status ← contentStatus env ms { sessionId, playerState, currentTime }
    return some status
  else return none

/-- What stands in the `try` block of `handleMessage`. -/
def dispatch (msg : CastMessage) (d : CastDevice) : Access CastDevice := do
  let j ← Access.ofOption (env.parse msg.payloadUtf8)
  if msg.namespaceUri = nsReceiver then
    match ← receiverStatus env j with
    | none => return d
    | some status => return d.takeReceiverStatus status
  else if msg.namespaceUri = nsMedia then
    match ← mediaStatus env j with
    | none => return d
    | some status => return d.takeMediaStatus status
  else return d

/-- The device after a message, unless something undefined happens. -/
def afterMessage (msg : CastMessage) (d : CastDevice) : Option CastDevice :=
  match dispatch env msg d with
  | .value d => some d
  | .threw => some d
  | .undefined => none

/-! ### What is undefined -/

theorem volumeStatus_eq (s : Json) (status : ReceiverStatus) :
  volumeStatus env s status = .ofOption (readVolume env s status)
  := by
  unfold volumeStatus readVolume
  cases h : s.member (Bytes.ofAscii "volume") with
  | none =>
      rw [Json.contains_of_not_member h]
      rfl
  | some volume =>
      rw [Json.contains_of_member h, Json.constAt_of_member h, if_pos rfl]
      simp only [valueOr, Access.pure_eq, ← Access.ofOption_some, Access.ofOption_bind]
      rfl

/-- The first element of a value that is not empty is found, or the access throws. -/
theorem constIndex_zero {j : Json} (h : isEmpty j = false) :
  constIndex 0 j = .ofOption (first j)
  := by
  cases j with
  | array elements =>
      cases elements with
      | nil => cases h
      | cons j elements => rfl
  | _ => rfl

theorem appStatus_eq (s : Json) (status : ReceiverStatus) :
  appStatus s status = .ofOption (readApp s status)
  := by
  unfold appStatus readApp hasApp
  cases h : s.member (Bytes.ofAscii "applications") with
  | none =>
      rw [Json.contains_of_not_member h]
      rfl
  | some applications =>
      rw [Json.contains_of_member h, Json.constAt_of_member h, if_pos rfl]
      dsimp only
      cases hempty : isEmpty applications with
      | true =>
          simp only [Access.value_bind, hempty]
          rfl
      | false =>
          simp only [Access.value_bind, hempty, valueOr, constIndex_zero hempty, Access.pure_eq,
            Bool.not_false]
          simp only [← Access.ofOption_some, Access.ofOption_bind]
          rfl

theorem titleStatus_eq (m : Json) (status : MediaStatus) :
  titleStatus m status = .ofOption (readTitle m status)
  := by
  unfold titleStatus readTitle
  cases h : m.member (Bytes.ofAscii "metadata") with
  | none =>
      rw [Json.contains_of_not_member h]
      rfl
  | some metadata =>
      rw [Json.contains_of_member h, Json.constAt_of_member h, if_pos rfl]
      simp only [valueOr, Access.pure_eq, ← Access.ofOption_some, Access.ofOption_bind]
      rw [Option.map_eq_bind]
      rfl

theorem contentStatus_eq (ms : Json) (status : MediaStatus) :
  contentStatus env ms status = .ofOption (readContent env ms status)
  := by
  unfold contentStatus readContent
  cases h : ms.member (Bytes.ofAscii "media") with
  | none =>
      rw [Json.contains_of_not_member h]
      rfl
  | some m =>
      rw [Json.contains_of_member h, Json.constAt_of_member h, if_pos rfl]
      simp only [Access.value_bind, valueOr, titleStatus_eq, Access.ofOption_bind]
      rfl

/-- The status that is read from the member `status`, when the type is the right one. -/
theorem receiverStatus_eq {j s : Json}
    (htype : j.valueAs Json.asString (Bytes.ofAscii "type") []
      = some (Bytes.ofAscii "RECEIVER_STATUS"))
    (hs : j.member (Bytes.ofAscii "status") = some s) :
  receiverStatus env j = .ofOption ((readReceiverStatus env s).map some)
  := by
  rw [receiverStatus, valueOr, htype, Json.constAt_of_member hs]
  simp only [Access.ofOption_some, Access.value_bind, ne_eq, not_true_eq_false, if_false,
    volumeStatus_eq, appStatus_eq, Access.pure_eq]
  rw [readReceiverStatus]
  cases readVolume env s {} with
  | none => rfl
  | some status =>
      rw [Access.ofOption_some, Access.value_bind, Option.bind_some]
      cases readApp s status <;> rfl

theorem mediaStatus_eq {j status : Json}
    (htype : j.valueAs Json.asString (Bytes.ofAscii "type") []
      = some (Bytes.ofAscii "MEDIA_STATUS"))
    (hs : j.member (Bytes.ofAscii "status") = some status) (hempty : isEmpty status = false) :
  mediaStatus env j = .ofOption (((first status).bind (readMediaStatus env)).map some)
  := by
  rw [mediaStatus, valueOr, htype, hasStatus, Json.contains_of_member hs,
    Json.constAt_of_member hs]
  simp only [Access.ofOption_some, Access.value_bind, ne_eq, not_true_eq_false, if_false, if_true,
    hempty, Bool.not_false, Access.pure_eq, constIndex_zero hempty, valueOr, contentStatus_eq]
  cases first status with
  | none => rfl
  | some ms =>
      rw [Access.ofOption_some, Access.value_bind, Option.bind_some, readMediaStatus]
      simp only [← Access.ofOption_some, Access.ofOption_bind, Option.bind_eq_bind,
        Option.map_eq_bind, Option.bind_assoc]
      rfl

/-- A message of another type is passed over, unless its type cannot be read. -/
theorem type_bind_of_ne
    {σ : Type} {j : Json} {type : Bytes}
    (h : j.valueAs Json.asString (Bytes.ofAscii "type") [] ≠ some type)
    (next : Access (Option σ)) :
  (valueOr Json.asString (Bytes.ofAscii "type") [] j >>= fun text =>
      if text ≠ type then pure none else next)
    = .ofOption ((j.valueAs Json.asString (Bytes.ofAscii "type") []).map fun _ => none)
  := by
  unfold valueOr
  cases htext : j.valueAs Json.asString (Bytes.ofAscii "type") [] with
  | none => rfl
  | some text =>
      have hne : text ≠ type := by
        rintro rfl
        exact h htext
      rw [Access.ofOption_some, Access.value_bind, if_pos hne]
      rfl

/-- What a report does to the device. -/
def settle (d : CastDevice) : Report → Option CastDevice
  | .receiver status => some (d.takeReceiverStatus status)
  | .media status => some (d.takeMediaStatus status)
  | .ignored => some d
  | .undefined => none

theorem settle_receiverStatus (j : Json) (d : CastDevice) :
  (match (do
      match ← receiverStatus env j with
      | none => return d
      | some status => return d.takeReceiverStatus status : Access CastDevice) with
    | .value d => some d
    | .threw => some d
    | .undefined => none)
    = settle d (handleReceiverStatus env j)
  := by
  unfold handleReceiverStatus
  split_ifs with htype
  · rw [receiverStatus, type_bind_of_ne htype]
    cases j.valueAs Json.asString (Bytes.ofAscii "type") [] <;> rfl
  · have htype := not_not.mp htype
    cases hs : j.member (Bytes.ofAscii "status") with
    | none =>
        rw [receiverStatus, valueOr, htype, Json.constAt_of_not_member htype hs]
        rfl
    | some s =>
        rw [receiverStatus_eq env htype hs]
        dsimp only
        cases readReceiverStatus env s <;> rfl

theorem settle_mediaStatus (j : Json) (d : CastDevice) :
  (match (do
      match ← mediaStatus env j with
      | none => return d
      | some status => return d.takeMediaStatus status : Access CastDevice) with
    | .value d => some d
    | .threw => some d
    | .undefined => none)
    = settle d (handleMediaStatus env j)
  := by
  unfold handleMediaStatus
  split_ifs with htype
  · rw [mediaStatus, type_bind_of_ne htype]
    cases j.valueAs Json.asString (Bytes.ofAscii "type") [] <;> rfl
  · have htype := not_not.mp htype
    cases hs : j.member (Bytes.ofAscii "status") with
    | none =>
        rw [mediaStatus, valueOr, htype, hasStatus, Json.contains_of_not_member hs]
        rfl
    | some status =>
        dsimp only
        cases hempty : isEmpty status with
        | true =>
            rw [mediaStatus, valueOr, htype, hasStatus, Json.contains_of_member hs,
              Json.constAt_of_member hs]
            simp only [Access.value_bind, hempty]
            rfl
        | false =>
            rw [mediaStatus_eq env htype hs hempty]
            cases (first status).bind (readMediaStatus env) <;> rfl

/-- The handlers, access by access, come to the report of the message. -/
theorem afterMessage_eq (msg : CastMessage) (d : CastDevice) :
  afterMessage env msg d = settle d (handleMessage env msg)
  := by
  unfold afterMessage dispatch handleMessage
  cases env.parse msg.payloadUtf8 with
  | none => rfl
  | some j =>
      dsimp only
      rw [Access.ofOption_some, Access.value_bind]
      split_ifs with hreceiver hmedia
      · apply settle_receiverStatus
      · apply settle_mediaStatus
      · rfl

/-! ### Whole statuses -/

/-- The payload of the message is an object of the type. -/
def HasType (msg : CastMessage) (type : Bytes) (j : Json) : Prop :=
  env.parse msg.payloadUtf8 = some j ∧ j.member (Bytes.ofAscii "type") = some (.string type)

/-- The message reports a status of the receiver. -/
def ReportsReceiver (msg : CastMessage) (status : ReceiverStatus) : Prop :=
  msg.namespaceUri = nsReceiver ∧ ∃ j s, HasType env msg (Bytes.ofAscii "RECEIVER_STATUS") j
    ∧ j.member (Bytes.ofAscii "status") = some s ∧ readReceiverStatus env s = some status

/-- The message reports a status of the media. -/
def ReportsMedia (msg : CastMessage) (status : MediaStatus) : Prop :=
  msg.namespaceUri = nsMedia ∧ ∃ j ms rest, HasType env msg (Bytes.ofAscii "MEDIA_STATUS") j
    ∧ j.member (Bytes.ofAscii "status") = some (.array (ms :: rest))
    ∧ readMediaStatus env ms = some status

/-- The message is of the type of a receiver's status, and has none. -/
def Statusless (msg : CastMessage) : Prop :=
  msg.namespaceUri = nsReceiver ∧ ∃ j, HasType env msg (Bytes.ofAscii "RECEIVER_STATUS") j
    ∧ j.member (Bytes.ofAscii "status") = none

/-- What is cached of the statuses is as before. -/
structure Unchanged (d d' : CastDevice) : Prop where
  lastStatus : d'.lastStatus = d.lastStatus
  lastMediaStatus : d'.lastMediaStatus = d.lastMediaStatus
  sessionId : d'.sessionId = d.sessionId
  transportId : d'.transportId = d.transportId
  mediaSessionId : d'.mediaSessionId = d.mediaSessionId

/-- Nothing undefined happens, and a message is taken over as a whole or changes nothing. -/
def TakenWhole (msg : CastMessage) (d : CastDevice) : Prop :=
  ∃ d', afterMessage env msg d = some d'
    ∧ (Unchanged d d'
      ∨ (∃ status, ReportsReceiver env msg status ∧ d' = d.takeReceiverStatus status)
      ∨ ∃ status, ReportsMedia env msg status ∧ d' = d.takeMediaStatus status)

theorem valueAs_type_iff {type : Bytes} (hne : type ≠ []) {j : Json} :
  j.valueAs Json.asString (Bytes.ofAscii "type") [] = some type
    ↔ j.member (Bytes.ofAscii "type") = some (.string type)
  := by
  cases j with
  | object members =>
      simp only [Json.valueAs, Json.member]
      cases members.lookup (Bytes.ofAscii "type") with
      | none => simp [hne.symm]
      | some v => cases v <;> simp [Json.asString]
  | _ => simp [Json.valueAs, Json.member]

variable {env}

theorem handleReceiverStatus_eq_receiver {j : Json} {status : ReceiverStatus}
    (h : handleReceiverStatus env j = .receiver status) :
  j.member (Bytes.ofAscii "type") = some (.string (Bytes.ofAscii "RECEIVER_STATUS"))
    ∧ ∃ s, j.member (Bytes.ofAscii "status") = some s ∧ readReceiverStatus env s = some status
  := by
  unfold handleReceiverStatus at h
  split at h
  next => cases h
  next htype =>
    use (valueAs_type_iff (by decide)).mp (not_not.mp htype)
    split at h
    next => cases h
    next s hs =>
      split at h
      next => cases h
      next hstatus =>
        obtain rfl := Report.receiver.inj h
        use s

theorem handleReceiverStatus_eq_undefined_iff {j : Json} :
  handleReceiverStatus env j = .undefined
    ↔ j.member (Bytes.ofAscii "type") = some (.string (Bytes.ofAscii "RECEIVER_STATUS"))
      ∧ j.member (Bytes.ofAscii "status") = none
  := by
  unfold handleReceiverStatus
  rw [← valueAs_type_iff (by decide)]
  split_ifs with htype
  · simp [htype]
  · cases j.member (Bytes.ofAscii "status") with
    | none => simp [not_not.mp htype]
    | some s =>
        dsimp only
        cases readReceiverStatus env s <;> simp

theorem handleMediaStatus_cases (env : Env) (j : Json) :
  handleMediaStatus env j = .ignored ∨ ∃ status, handleMediaStatus env j = .media status
    ∧ j.member (Bytes.ofAscii "type") = some (.string (Bytes.ofAscii "MEDIA_STATUS"))
    ∧ ∃ ms rest, j.member (Bytes.ofAscii "status") = some (.array (ms :: rest))
      ∧ readMediaStatus env ms = some status
  := by
  unfold handleMediaStatus
  rw [← valueAs_type_iff (by decide)]
  split_ifs with htype
  · left
    rfl
  · cases hs : j.member (Bytes.ofAscii "status") with
    | none =>
        left
        rfl
    | some s =>
        dsimp only
        split_ifs with hempty
        · left
          rfl
        · cases hread : (first s).bind (readMediaStatus env) with
          | none =>
              left
              rfl
          | some status =>
              right
              obtain ⟨ms, hfirst, hms⟩ := Option.bind_eq_some_iff.mp hread
              use status, rfl, not_not.mp htype
              cases s with
              | array elements =>
                  cases elements with
                  | nil => cases hfirst
                  | cons j elements =>
                      obtain rfl := Option.some.inj hfirst
                      use j, elements
              | _ => cases hfirst

theorem handleReceiverStatus_ne_media {j : Json} {status : MediaStatus} :
  handleReceiverStatus env j ≠ .media status
  := by
  unfold handleReceiverStatus
  split_ifs
  · simp
  · cases j.member (Bytes.ofAscii "status") with
    | none => simp
    | some s =>
        dsimp only
        cases readReceiverStatus env s <;> simp

theorem reportsReceiver_of_handleMessage {msg : CastMessage} {status : ReceiverStatus}
    (h : handleMessage env msg = .receiver status) :
  ReportsReceiver env msg status
  := by
  unfold handleMessage at h
  split at h
  next => cases h
  next j hparse =>
    split_ifs at h with hreceiver hmedia
    · obtain ⟨htype, s, hs, hstatus⟩ := handleReceiverStatus_eq_receiver h
      use hreceiver, j, s, ⟨hparse, htype⟩, hs
    · rcases handleMediaStatus_cases env j with hnone | ⟨status, hsome, -⟩
      · cases hnone.symm.trans h
      · cases hsome.symm.trans h

theorem reportsMedia_of_handleMessage {msg : CastMessage} {status : MediaStatus}
    (h : handleMessage env msg = .media status) :
  ReportsMedia env msg status
  := by
  unfold handleMessage at h
  split at h
  next => cases h
  next j hparse =>
    split_ifs at h with hreceiver hmedia
    · exact (handleReceiverStatus_ne_media h).elim
    · rcases handleMediaStatus_cases env j
        with hnone | ⟨status, hsome, htype, ms, rest, hs, hread⟩
      · cases hnone.symm.trans h
      · obtain rfl := Report.media.inj (hsome.symm.trans h)
        use hmedia, j, ms, rest, ⟨hparse, htype⟩, hs

/-- A report is undefined just for a status message of a receiver without the status. -/
theorem handleMessage_eq_undefined_iff {msg : CastMessage} :
  handleMessage env msg = .undefined ↔ Statusless env msg
  := by
  constructor
  · intro h
    unfold handleMessage at h
    split at h
    next => cases h
    next j hparse =>
      split_ifs at h with hreceiver hmedia
      · obtain ⟨htype, hs⟩ := handleReceiverStatus_eq_undefined_iff.mp h
        use hreceiver, j, ⟨hparse, htype⟩, hs
      · rcases handleMediaStatus_cases env j with hnone | ⟨status, hsome, -⟩
        · cases hnone.symm.trans h
        · cases hsome.symm.trans h
  · rintro ⟨hreceiver, j, ⟨hparse, htype⟩, hs⟩
    rw [handleMessage, hparse]
    dsimp only
    rw [if_pos hreceiver]
    apply handleReceiverStatus_eq_undefined_iff.mpr ⟨htype, hs⟩

theorem takenWhole_of_ne_undefined
    {msg : CastMessage} (h : handleMessage env msg ≠ .undefined) (d : CastDevice) :
  TakenWhole env msg d
  := by
  unfold TakenWhole
  rw [afterMessage_eq]
  cases hreport : handleMessage env msg with
  | receiver status =>
      use d.takeReceiverStatus status, rfl
      right
      left
      use status, reportsReceiver_of_handleMessage hreport
  | media status =>
      use d.takeMediaStatus status, rfl
      right
      right
      use status, reportsMedia_of_handleMessage hreport
  | ignored =>
      use d, rfl
      left
      constructor <;> rfl
  | undefined => exact (h hreport).elim

/-- Every message but a receiver's status message without the status is taken over as a whole or
changes nothing. -/
theorem afterMessage_takenWhole_iff (env : Env) (msg : CastMessage) (d : CastDevice) :
  TakenWhole env msg d ↔ ¬ Statusless env msg
  := by
  rw [← handleMessage_eq_undefined_iff]
  constructor
  · rintro ⟨d', hafter, -⟩ hundefined
    rw [afterMessage_eq, hundefined] at hafter
    cases hafter
  · intro h
    apply takenWhole_of_ne_undefined h d

/-- A receiver's status message without the status. -/
def statuslessJson : Json :=
  .object [(Bytes.ofAscii "type", .string (Bytes.ofAscii "RECEIVER_STATUS"))]

theorem not_takenWhole_statusless :
  ¬ TakenWhole session (message nsReceiver statuslessJson) {}
  := by
  have hreport : handleMessage session (message nsReceiver statuslessJson) = .undefined := by
    rw [handle_message (by decide +kernel) (by decide +kernel), if_pos rfl]
    rfl
  rintro ⟨d', hafter, -⟩
  rw [afterMessage_eq, hreport] at hafter
  cases hafter

end CastDevice

end NexusMainframe
