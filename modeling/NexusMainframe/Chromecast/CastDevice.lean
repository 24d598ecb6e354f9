import NexusMainframe.Chromecast.CastProto
import NexusMainframe.Lib.JsonText
import NexusMainframe.Lib.Lts

/-!
# The cast device

A cast device keeps the ids that its receiver reports: a status of the receiver has the
transport id of the app that runs, a status of the media has the id of the media session. The
media commands address a message to the transport and put the media session in it.

A command reads both ids under the lock of the device, and reads the transport id again when
it sends; a status may come in between. Disconnecting forgets the ids. Connecting does not, nor
does a new transport id make the device forget the media session; so a command may send an id
that is out of date.
-/

namespace NexusMainframe

namespace CastDevice

/-- What a receiver reports: its volume, and the app that it runs, if any. -/
structure ReceiverStatus where
  sessionId : Bytes := []
  transportId : Bytes := []
  appId : Bytes := []
  displayName : Bytes := []
  isIdleScreen : Bool := true
  /-- The bits of a floating-point number, as for all of them here. -/
  volumeLevel : UInt64 := 0x3FF0000000000000
  muted : Bool := false
deriving DecidableEq

/-- What an app reports on the media that it plays. -/
structure MediaStatus where
  sessionId : Int32 := -1
  playerState : Bytes := []
  currentTime : UInt64 := 0
  duration : UInt64 := 0
  title : Bytes := []
  contentId : Bytes := []
  contentType : Bytes := []
deriving DecidableEq

/-- The parser, the serialiser for the messages of the device, and the conversions between
integers and floating-point numbers. -/
structure Env where
  parse : Bytes → Option Json
  dump : Json → Bytes
  truncate : UInt64 → Int32
  widen : Int → UInt64

variable (env : Env)

/-- `NS_RECEIVER`, the namespace of launching, stopping and the volume. -/
def nsReceiver : Bytes :=
  Bytes.ofAscii "urn:x-cast:com.google.cast.receiver"

/-- `NS_MEDIA`, the namespace of the media commands. -/
def nsMedia : Bytes :=
  Bytes.ofAscii "urn:x-cast:com.google.cast.media"

/-- `SENDER_ID`. -/
def senderId : Bytes :=
  Bytes.ofAscii "sender-0"

/-! ### Reading a status -/

/-- `empty()`. -/
def isEmpty : Json → Bool
  | .null => true
  | .array elements => elements.isEmpty
  | .object members => members.isEmpty
  | _ => false

/-- The first element; a value that is no array has none, and access to it throws. -/
def first : Json → Option Json
  | .array (j :: _) => some j
  | _ => none

/-- The part of a status on the volume. -/
def readVolume (s : Json) (status : ReceiverStatus) : Option ReceiverStatus :=
  match s.member (Bytes.ofAscii "volume") with
  | none => some status
  | some volume => do
      let volumeLevel ← volume.valueAs (Json.asDouble env.widen) (Bytes.ofAscii "level")
        0x3FF0000000000000
      let muted ← volume.valueAs Json.asBoolean (Bytes.ofAscii "muted") false
      some { status with volumeLevel, muted }

/-- The part of a status on the app. -/
def readApp (s : Json) (status : ReceiverStatus) : Option ReceiverStatus :=
  match s.member (Bytes.ofAscii "applications") with
  | none => some { status with isIdleScreen := true }
  | some applications =>
      if isEmpty applications then some { status with isIdleScreen := true }
      else do
        let app ← first applications
        let sessionId ← app.valueAs Json.asString (Bytes.ofAscii "sessionId") []
        let transportId ← app.valueAs Json.asString (Bytes.ofAscii "transportId") []
        let appId ← app.valueAs Json.asString (Bytes.ofAscii "appId") []
        let displayName ← app.valueAs Json.asString (Bytes.ofAscii "displayName") []
        let isIdleScreen ← app.valueAs Json.asBoolean (Bytes.ofAscii "isIdleScreen") false
        some { status with sessionId, transportId, appId, displayName, isIdleScreen }

/-- The status of the receiver in the member `status`, unless something throws. -/
def readReceiverStatus (s : Json) : Option ReceiverStatus :=
  (readVolume env s {}).bind (readApp s)

/-- The part of a status on the metadata of the media. -/
def readTitle (m : Json) (status : MediaStatus) : Option MediaStatus :=
  match m.member (Bytes.ofAscii "metadata") with
  | none => some status
  | some metadata =>
      (metadata.valueAs Json.asString (Bytes.ofAscii "title") []).map fun title =>
        { status with title }

/-- The part of a status on the media. -/
def readContent (ms : Json) (status : MediaStatus) : Option MediaStatus :=
  match ms.member (Bytes.ofAscii "media") with
  | none => some status
  | some m => do
      let contentId ← m.valueAs Json.asString (Bytes.ofAscii "contentId") []
      let contentType ← m.valueAs Json.asString (Bytes.ofAscii "contentType") []
      let duration ← m.valueAs (Json.asDouble env.widen) (Bytes.ofAscii "duration") 0
      readTitle m { status with contentId, contentType, duration }

/-- The status of the media in the first element of the member `status`, unless something
throws. -/
def readMediaStatus (ms : Json) : Option MediaStatus := do
  let sessionId ← ms.valueAs (Json.asInt32 env.truncate) (Bytes.ofAscii "mediaSessionId") (-1)
  let playerState ← ms.valueAs Json.asString (Bytes.ofAscii "playerState")
    (Bytes.ofAscii "UNKNOWN")
  let currentTime ← ms.valueAs (Json.asDouble env.widen) (Bytes.ofAscii "currentTime") 0
  readContent env ms { sessionId, playerState, currentTime }

/-- What a message comes to: the device takes a status over, ignores the message, or reads a
member that a constant value does not have, which is undefined. -/
inductive Report where
  | receiver (status : ReceiverStatus)
  | media (status : MediaStatus)
  | ignored
  | undefined
deriving DecidableEq

/-- `handleReceiverStatus`, where an exception is caught and the message ignored. -/
def handleReceiverStatus (j : Json) : Report :=
  if j.valueAs Json.asString (Bytes.ofAscii "type") [] ≠ some (Bytes.ofAscii "RECEIVER_STATUS")
  then .ignored
  else
    match j.member (Bytes.ofAscii "status") with
    | none => .undefined
    | some s =>
        match readReceiverStatus env s with
        | none => .ignored
        | some status => .receiver status

/-- `handleMediaStatus`, which ignores a message without a status. -/
def handleMediaStatus (j : Json) : Report :=
  if j.valueAs Json.asString (Bytes.ofAscii "type") [] ≠ some (Bytes.ofAscii "MEDIA_STATUS")
  then .ignored
  else
    match j.member (Bytes.ofAscii "status") with
    | none => .ignored
    | some status =>
        if isEmpty status then .ignored
        else
          match (first status).bind (readMediaStatus env) with
          | none => .ignored
          | some status => .media status

/-- `handleMessage`: messages go to the handlers by their namespace. -/
def handleMessage (msg : CastMessage) : Report :=
  match env.parse msg.payloadUtf8 with
  | none => .ignored
  | some j =>
      if msg.namespaceUri = nsReceiver then handleReceiverStatus env j
      else if msg.namespaceUri = nsMedia then handleMediaStatus env j
      else .ignored

end CastDevice

/-! ### The device -/

/-- A channel: it never came about, it is up, or the receive loop has ended. -/
inductive CastDevice.Link where
  | unconnected
  | up
  | lost
deriving DecidableEq

/-- A device with what its threads share, and the statuses that it took over last. -/
structure CastDevice where
  channel : Option CastDevice.Link := none
  sessionId : Bytes := []
  transportId : Bytes := []
  mediaSessionId : Int32 := -1
  requestId : Int32 := 0
  lastStatus : Option CastDevice.ReceiverStatus := none
  lastMediaStatus : Option CastDevice.MediaStatus := none
deriving DecidableEq

namespace CastDevice

/-- How `connect` ends: there is no connection, the first message cannot be sent, or the status
of the receiver is asked for. -/
inductive Outcome where
  | failed
  | refused
  | connected
deriving DecidableEq

/-- `connect`; the request for the status of the receiver takes a request id. -/
def connect (d : CastDevice) : Outcome → CastDevice
  | .failed => { d with channel := some .unconnected }
  | .refused => { d with channel := some .up }
  | .connected => { d with channel := some .up, requestId := d.requestId + 1 }

/-- `disconnect` forgets the ids of the session, but not the last request id. -/
def disconnect (d : CastDevice) : CastDevice :=
  match d.channel with
  | none => d
  | some _ =>
      { d with channel := none, sessionId := [], transportId := [], mediaSessionId := -1 }

/-- The media commands. -/
inductive Command where
  | play
  | pause
  | stopMedia
  | seek (seconds : UInt64)
deriving DecidableEq

/-- A command that has read the ids, with the media session. -/
structure Call where
  command : Command
  requestId : Int32
  mid : Int32
deriving DecidableEq

/-- The text that a media command sends. -/
def Call.payload (call : Call) : Json :=
  let ids (type : String) :=
    [(Bytes.ofAscii "mediaSessionId", Json.integer call.mid.toInt),
      (Bytes.ofAscii "requestId", Json.integer call.requestId.toInt),
      (Bytes.ofAscii "type", Json.string (Bytes.ofAscii type))]
  match call.command with
  | .play => .object (ids "PLAY")
  | .pause => .object (ids "PAUSE")
  | .stopMedia => .object (ids "STOP")
  | .seek seconds => .object ((Bytes.ofAscii "currentTime", .float seconds) :: ids "SEEK")

/-- The first part of a command: nothing happens without a transport and a media session. -/
def begin (d : CastDevice) (command : Command) : Option (Call × CastDevice) :=
  if d.transportId = [] ∨ d.mediaSessionId < 0 then none
  else
    some (⟨command, d.requestId + 1, d.mediaSessionId⟩, { d with requestId := d.requestId + 1 })

/-- The message that `sendMediaMsg` puts on the channel; nothing is sent over a channel that
never came about. -/
def sendMediaMsg (env : Env) (d : CastDevice) (payload : Json) : Option CastMessage :=
  if d.channel = none ∨ d.channel = some .unconnected ∨ d.transportId = [] then none
  else
    some
      { sourceId := senderId
        destinationId := d.transportId
        namespaceUri := nsMedia
        payloadUtf8 := env.dump payload }

/-- What `handleReceiverStatus` stores under the lock. -/
def takeReceiverStatus (d : CastDevice) (status : ReceiverStatus) : CastDevice :=
  { d with
    lastStatus := some status
    sessionId := status.sessionId
    transportId := status.transportId }

/-- What `handleMediaStatus` stores under the lock. -/
def takeMediaStatus (d : CastDevice) (status : MediaStatus) : CastDevice :=
  { d with lastMediaStatus := some status, mediaSessionId := status.sessionId }

/-! ### Runs -/

/-- What happened to a device. -/
inductive Obs where
  | connected
  | disconnected
  | receiver (transportId : Bytes)
  | media (sessionId : Int32)
deriving DecidableEq

/-- A device with the commands that have read the ids and have still to send, and with what
happened to it, the last first. -/
structure System where
  device : CastDevice
  calls : List Call
  history : List Obs
deriving DecidableEq

/-- A call, the second part of a command, or a turn of the receive loop. -/
inductive Act where
  | connect (outcome : Outcome)
  | disconnect
  | lose
  | receive (msg : CastMessage)
  | begin (command : Command)
  | finish (call : Nat)
deriving DecidableEq

namespace System

/-- A device before its first call, with nothing sent. -/
def init : System where
  device := {}
  calls := []
  history := []

/-- The commands are split where they release the lock. -/
def step (env : Env) (s : System) : Act → Option System
  | .connect .failed => some { s with device := s.device.connect .failed }
  | .connect outcome =>
      some { s with device := s.device.connect outcome, history := .connected :: s.history }
  | .disconnect =>
      match s.device.channel with
      | none => some s
      | some _ =>
          some { s with device := s.device.disconnect, history := .disconnected :: s.history }
  | .lose =>
      if s.device.channel = some .up then
        some { s with device := { s.device with channel := some .lost } }
      else none
  | .receive msg =>
      if s.device.channel = some .up then
        match handleMessage env msg with
        | .undefined => none
        | .ignored => some s
        | .receiver status =>
            some { s with
              device := s.device.takeReceiverStatus status
              history := .receiver status.transportId :: s.history }
        | .media status =>
            some { s with
              device := s.device.takeMediaStatus status
              history := .media status.sessionId :: s.history }
      else none
  | .begin command =>
      match s.device.begin command with
      | none => some s
      | some (call, device) => some { s with device, calls := s.calls ++ [call] }
  | .finish call =>
      if call < s.calls.length then some { s with calls := s.calls.eraseIdx call } else none

end System

/-! ### Ids in date -/

/-- The transport id was reported over the channel that is up, or was up last. -/
def Reported (transportId : Bytes) : List Obs → Prop
  | [] => False
  | .receiver other :: history => other = transportId ∨ Reported transportId history
  | .connected :: _ => False
  | .disconnected :: history | .media _ :: history => Reported transportId history

/-- The device has the transport id from the last report of the receiver. -/
def Current (transportId : Bytes) : List Obs → Prop
  | [] => False
  | .receiver other :: _ => other = transportId
  | .disconnected :: _ => False
  | .connected :: history | .media _ :: history => Current transportId history

/-- The media session was reported when the device had the transport id, which it has had
since. -/
def InSession (transportId : Bytes) (mid : Int32) : List Obs → Prop
  | [] => False
  | .media other :: history =>
      (other = mid ∧ Current transportId history) ∨ InSession transportId mid history
  | .receiver other :: history => other = transportId ∧ InSession transportId mid history
  | .disconnected :: _ => False
  | .connected :: history => InSession transportId mid history

/-- Whatever a command that is under way, or begins here, would send here is addressed to a
transport id that was reported over the channel, and has the id of a media session that was
reported after the transport id became current. -/
def InDate (env : Env) (s : System) : Prop :=
  ∀ call, (call ∈ s.calls ∨ ∃ command d, s.device.begin command = some (call, d)) →
    ∀ msg, s.device.sendMediaMsg env call.payload = some msg →
      Reported msg.destinationId s.history ∧ InSession msg.destinationId call.mid s.history

/-- No command is under way, and there is no media session. -/
def Quiet (s : System) : Prop :=
  s.calls = [] ∧ s.device.mediaSessionId < 0

/-- A receiver has reported since the device was connected. -/
def Heard : List Obs → Prop
  | [] => False
  | .receiver _ :: _ => True
  | .connected :: _ => False
  | .disconnected :: history | .media _ :: history => Heard history

/-- A connection comes about when the device has no transport id, or is quiet. A transport id
other than the one before comes when the device is quiet. And a media session comes when the
device has no transport id, or the receiver has reported since the device was connected. -/
def Timely (env : Env) (s : System) : Act → Prop
  | .connect outcome => outcome = .failed ∨ s.device.transportId = [] ∨ Quiet s
  | .receive msg =>
      match handleMessage env msg with
      | .receiver status =>
          status.transportId = [] ∨ status.transportId = s.device.transportId ∨ Quiet s
      | .media status => status.sessionId < 0 ∨ s.device.transportId = [] ∨ Heard s.history
      | .ignored | .undefined => True
  | .disconnect | .lose | .begin _ | .finish _ => True

/-- The steps, each with the state it is taken in. -/
inductive Step (env : Env) : System → Act → System → Prop where
  | connectFailed {s} :
      Step env s (.connect .failed) { s with device := s.device.connect .failed }
  | connect {s} (outcome : Outcome) (h : outcome ≠ .failed) :
      Step env s (.connect outcome)
        { s with device := s.device.connect outcome, history := .connected :: s.history }
  | disconnectNone {s} (h : s.device.channel = none) : Step env s .disconnect s
  | disconnect {s} (link : Link) (h : s.device.channel = some link) :
      Step env s .disconnect
        { s with device := s.device.disconnect, history := .disconnected :: s.history }
  | lose {s} (h : s.device.channel = some .up) :
      Step env s .lose { s with device := { s.device with channel := some .lost } }
  | ignored {s} (msg : CastMessage) (h : handleMessage env msg = .ignored) :
      Step env s (.receive msg) s
  | receiver {s} (msg : CastMessage) (status : ReceiverStatus) (up : s.device.channel = some .up)
      (h : handleMessage env msg = .receiver status) :
      Step env s (.receive msg) { s with
        device := s.device.takeReceiverStatus status
        history := .receiver status.transportId :: s.history }
  | media {s} (msg : CastMessage) (status : MediaStatus) (up : s.device.channel = some .up)
      (h : handleMessage env msg = .media status) :
      Step env s (.receive msg) { s with
        device := s.device.takeMediaStatus status
        history := .media status.sessionId :: s.history }
  | beginNone {s} (command : Command) : Step env s (.begin command) s
  | begin {s} (command : Command) (call : Call) (device : CastDevice)
      (h : s.device.begin command = some (call, device)) :
      Step env s (.begin command) { s with device, calls := s.calls ++ [call] }
  | finish {s} (call : Nat) : Step env s (.finish call) { s with calls := s.calls.eraseIdx call }

/-- What `System.step` does is one of the steps. -/
theorem Step.of_step
    {env : Env} {s u : System} {a : Act} (h : s.step env a = some u) :
  Step env s a u
  := by
  cases a with
  | connect outcome =>
      cases outcome with
      | failed =>
          obtain rfl := Option.some.inj h
          apply Step.connectFailed
      | refused =>
          obtain rfl := Option.some.inj h
          apply Step.connect .refused
          decide
      | connected =>
          obtain rfl := Option.some.inj h
          apply Step.connect .connected
          decide
  | disconnect =>
      simp only [System.step] at h
      split at h
      next hchannel =>
        obtain rfl := Option.some.inj h
        apply Step.disconnectNone hchannel
      next link hchannel =>
        obtain rfl := Option.some.inj h
        apply Step.disconnect link hchannel
  | lose =>
      simp only [System.step] at h
      split at h
      next hup =>
        obtain rfl := Option.some.inj h
        apply Step.lose hup
      next => cases h
  | receive msg =>
      simp only [System.step] at h
      split at h
      next hup =>
        split at h
        next => cases h
        next hreport =>
          obtain rfl := Option.some.inj h
          apply Step.ignored msg hreport
        next status hreport =>
          obtain rfl := Option.some.inj h
          apply Step.receiver msg status hup hreport
        next status hreport =>
          obtain rfl := Option.some.inj h
          apply Step.media msg status hup hreport
      next => cases h
  | begin command =>
      simp only [System.step] at h
      split at h
      next =>
        obtain rfl := Option.some.inj h
        apply Step.beginNone
      next call device hbegin =>
        obtain rfl := Option.some.inj h
        apply Step.begin command call device hbegin
  | finish call =>
      simp only [System.step] at h
      split at h
      next =>
        obtain rfl := Option.some.inj h
        apply Step.finish
      next => cases h

/-! ### Reports -/

theorem Reported.heard {transportId : Bytes} {history : List Obs}
    (h : Reported transportId history) :
  Heard history
  := by
  induction history with
  | nil => apply h
  | cons o history ih =>
      cases o with
      | connected => apply h
      | receiver other => trivial
      | disconnected | media => apply ih h

/-- Of the reports since the device was connected, the last one has the current id. -/
theorem Current.reported
    {transportId : Bytes} {history : List Obs} (h : Current transportId history)
    (hheard : Heard history) :
  Reported transportId history
  := by
  induction history with
  | nil => apply h
  | cons o history ih =>
      cases o with
      | connected => cases hheard
      | disconnected => cases h
      | receiver other =>
          left
          apply h
      | media mid => apply ih h hheard

theorem InSession.current
    {transportId : Bytes} {mid : Int32} {history : List Obs}
    (h : InSession transportId mid history) :
  Current transportId history
  := by
  induction history with
  | nil => apply h
  | cons o history ih =>
      cases o with
      | connected => apply ih h
      | disconnected => apply h
      | receiver other => apply h.1
      | media other =>
          rcases h with ⟨-, h⟩ | h
          · apply h
          · apply ih h

/-- The device has the transport id that was reported last. -/
def Tracks (s : System) : Prop :=
  ∀ transportId, transportId ≠ [] →
    (Current transportId s.history ↔ transportId = s.device.transportId)

theorem Tracks.init :
  Tracks System.init
  := by
  intro transportId hne
  simp [System.init, Current, hne]

theorem begin_spec
    {d d' : CastDevice} {command : Command} {call : Call} (h : d.begin command = some (call, d')) :
  ¬ d.mediaSessionId < 0 ∧ call.mid = d.mediaSessionId ∧ d'.channel = d.channel
    ∧ d'.transportId = d.transportId ∧ d'.mediaSessionId = d.mediaSessionId
  := by
  unfold begin at h
  split at h
  next => cases h
  next hready =>
    cases h
    rw [not_or] at hready
    use hready.2

theorem Tracks.step
    {env : Env} {s u : System} {a : Act} (h : Tracks s) (hstep : Step env s a u) :
  Tracks u
  := by
  cases hstep with
  | connectFailed => apply h
  | connect outcome houtcome =>
      cases outcome with
      | failed => apply h
      | refused | connected => apply h
  | disconnectNone => apply h
  | disconnect link hchannel =>
      intro transportId hne
      simp [Current, CastDevice.disconnect, hchannel, hne]
  | lose => apply h
  | ignored => apply h
  | receiver msg status =>
      intro transportId hne
      apply eq_comm
  | media => apply h
  | beginNone => apply h
  | begin command call device hbegin =>
      intro transportId hne
      rw [h transportId hne, (begin_spec hbegin).2.2.2.1]
  | finish => apply h

/-! ### What would be sent -/

/-- A message can be sent over the channel. -/
def Opened (d : CastDevice) : Prop :=
  d.channel = some .up ∨ d.channel = some .lost

/-- The media session of a command that is under way or may begin. -/
def Due (s : System) (mid : Int32) : Prop :=
  (∃ call ∈ s.calls, call.mid = mid)
    ∨ (¬ s.device.mediaSessionId < 0 ∧ s.device.mediaSessionId = mid)

theorem quiet_iff {s : System} :
  Quiet s ↔ ∀ mid, ¬ Due s mid
  := by
  constructor
  · rintro ⟨hcalls, hmid⟩ mid hdue
    rcases hdue with ⟨call, hcall, -⟩ | ⟨hnot, -⟩
    · rw [hcalls] at hcall
      cases hcall
    · apply hnot hmid
  · intro hnone
    constructor
    · apply List.eq_nil_iff_forall_not_mem.mpr
      intro call hcall
      apply hnone call.mid
      left
      use call, hcall
    · by_contra hnot
      apply hnone s.device.mediaSessionId
      right
      use hnot

theorem sendMediaMsg_eq_some
    {env : Env} {d : CastDevice} {payload : Json} {msg : CastMessage} :
  d.sendMediaMsg env payload = some msg
    ↔ Opened d ∧ d.transportId ≠ [] ∧
      msg = ⟨senderId, d.transportId, nsMedia, env.dump payload⟩
  := by
  have hopened : Opened d ↔ d.channel ≠ none ∧ d.channel ≠ some .unconnected := by
    unfold Opened
    rcases d.channel with _ | _ | _ | _ <;> simp
  simp only [sendMediaMsg, Option.ite_none_left_eq_some, Option.some.injEq, not_or, hopened,
    ne_eq, and_assoc, @eq_comm _ msg]

/-- What is in date, for the media sessions alone. -/
theorem inDate_iff {env : Env} {s : System} :
  InDate env s ↔ (Opened s.device → s.device.transportId ≠ [] → ∀ mid, Due s mid →
    Reported s.device.transportId s.history ∧ InSession s.device.transportId mid s.history)
  := by
  constructor
  · intro h hopened hne mid hdue
    have hsent : ∀ payload, s.device.sendMediaMsg env payload
        = some ⟨senderId, s.device.transportId, nsMedia, env.dump payload⟩ :=
      fun payload => sendMediaMsg_eq_some.mpr ⟨hopened, hne, rfl⟩
    rcases hdue with ⟨call, hcall, rfl⟩ | ⟨hmid, rfl⟩
    · apply h call (.inl hcall) _ (hsent _)
    · have hbegin : s.device.begin .play = some (⟨.play, s.device.requestId + 1,
          s.device.mediaSessionId⟩, { s.device with requestId := s.device.requestId + 1 }) := by
        rw [CastDevice.begin, if_neg]
        rw [not_or]
        use hne
      apply h _ (.inr ⟨_, _, hbegin⟩) _ (hsent _)
  · intro h call hcall msg hmsg
    obtain ⟨hopened, hne, rfl⟩ := sendMediaMsg_eq_some.mp hmsg
    apply h hopened hne
    rcases hcall with hcall | ⟨command, d, hbegin⟩
    · left
      use call, hcall
    · right
      obtain ⟨hmid, hcall, -⟩ := begin_spec hbegin
      use hmid, hcall.symm

/-- A step that reports nothing and makes no media session due leaves the state in date. -/
theorem InDate.of_due
    {env : Env} {s u : System} (h : InDate env s) (hopened : Opened u.device → Opened s.device)
    (htransport : u.device.transportId = s.device.transportId) (hhistory : u.history = s.history)
    (hdue : ∀ mid, Due u mid → Due s mid) :
  InDate env u
  := by
  rw [inDate_iff] at h ⊢
  rw [htransport, hhistory]
  intro hopen hne mid hmid
  apply h (hopened hopen) hne mid (hdue mid hmid)

theorem timely_receiver
    {env : Env} {s : System} {msg : CastMessage} {status : ReceiverStatus}
    (h : handleMessage env msg = .receiver status) :
  Timely env s (.receive msg) ↔
    status.transportId = [] ∨ status.transportId = s.device.transportId ∨ Quiet s
  := by
  rw [Timely, h]

theorem timely_media
    {env : Env} {s : System} {msg : CastMessage} {status : MediaStatus}
    (h : handleMessage env msg = .media status) :
  Timely env s (.receive msg) ↔
    status.sessionId < 0 ∨ s.device.transportId = [] ∨ Heard s.history
  := by
  rw [Timely, h]

/-- A connection that is opened leaves the state in date just when nothing is due. -/
theorem inDate_connect_iff
    {env : Env} {s : System} {outcome : Outcome} (houtcome : outcome ≠ .failed) :
  InDate env
      { s with device := s.device.connect outcome, history := .connected :: s.history }
    ↔ Timely env s (.connect outcome)
  := by
  have hopened : Opened (s.device.connect outcome) := by
    cases outcome with
    | failed => exact (houtcome rfl).elim
    | refused | connected =>
        left
        rfl
  have htransport : (s.device.connect outcome).transportId = s.device.transportId := by
    cases outcome <;> rfl
  have hmid : (s.device.connect outcome).mediaSessionId = s.device.mediaSessionId := by
    cases outcome <;> rfl
  simp only [Timely, houtcome, false_or, inDate_iff, hopened, htransport, Due, hmid, Reported,
    false_and, true_imp_iff, imp_false]
  rw [quiet_iff]
  tauto

/-- A receiver status leaves the state in date just when it is timely: a media session that is
due belongs to the transport that is current then. -/
theorem InDate.receiver_iff
    {env : Env} {s : System} (htracks : Tracks s) (h : InDate env s)
    (hup : s.device.channel = some .up) {msg : CastMessage} {status : ReceiverStatus}
    (hreport : handleMessage env msg = .receiver status) :
  InDate env { s with
      device := s.device.takeReceiverStatus status
      history := .receiver status.transportId :: s.history }
    ↔ Timely env s (.receive msg)
  := by
  rw [timely_receiver hreport]
  rw [inDate_iff] at h ⊢
  constructor
  · intro hdate
    by_contra hnot
    rw [not_or, not_or, quiet_iff, not_forall] at hnot
    obtain ⟨hne, hother, mid, hdue⟩ := hnot
    have hsession := (hdate (.inl hup) hne mid (not_not.mp hdue)).2
    apply hother
    apply (htracks status.transportId hne).mp
    apply InSession.current hsession.2
  · intro htimely _ hne mid hdue
    have hdue : Due s mid := hdue
    use .inl rfl, rfl
    rcases htimely with hempty | hsame | hquiet
    · exact (hne hempty).elim
    · change InSession status.transportId mid s.history
      rw [hsame]
      apply (h (.inl hup) (by rwa [← hsame]) mid hdue).2
    · exact (quiet_iff.mp hquiet mid hdue).elim

/-- A media status leaves the state in date just when it is timely: its session is reported
when the connection has been heard of. -/
theorem InDate.media_iff
    {env : Env} {s : System} (htracks : Tracks s) (h : InDate env s)
    (hup : s.device.channel = some .up) {msg : CastMessage} {status : MediaStatus}
    (hreport : handleMessage env msg = .media status) :
  InDate env { s with
      device := s.device.takeMediaStatus status
      history := .media status.sessionId :: s.history }
    ↔ Timely env s (.receive msg)
  := by
  rw [timely_media hreport]
  rw [inDate_iff] at h ⊢
  constructor
  · intro hdate
    by_contra hnot
    rw [not_or, not_or] at hnot
    obtain ⟨hmid, hne, hheard⟩ := hnot
    apply hheard
    apply (hdate (.inl hup) hne status.sessionId (.inr ⟨hmid, rfl⟩)).1.heard
  · rintro htimely _ hne mid (hcall | ⟨hmid, rfl⟩)
    · obtain ⟨hreported, hsession⟩ := h (.inl hup) hne mid (.inl hcall)
      use hreported
      right
      apply hsession
    · have hcurrent := (htracks _ hne).mpr rfl
      rcases htimely with hneg | hempty | hheard
      · exact (hmid hneg).elim
      · exact (hne hempty).elim
      · use hcurrent.reported hheard
        left
        use rfl, hcurrent

/-- A step leads to a state in date just if it is timely. -/
theorem inDate_step_iff
    {env : Env} {s u : System} {a : Act} (htracks : Tracks s) (h : InDate env s)
    (hstep : Step env s a u) :
  InDate env u ↔ Timely env s a
  := by
  cases hstep with
  | connectFailed =>
      simp only [Timely, true_or, iff_true]
      rw [inDate_iff]
      rintro (hup | hlost)
      · cases hup
      · cases hlost
  | connect outcome houtcome => exact inDate_connect_iff houtcome
  | disconnectNone => simp only [Timely, h]
  | disconnect link hchannel =>
      simp only [Timely, iff_true]
      rw [inDate_iff]
      intro hopened
      simp [Opened, CastDevice.disconnect, hchannel] at hopened
  | lose hup =>
      simp only [Timely, iff_true]
      apply h.of_due
      · intro _
        left
        apply hup
      · rfl
      · rfl
      · intro mid hdue
        apply hdue
  | ignored msg hreport => simp only [Timely, hreport, h]
  | receiver msg status hup hreport => exact h.receiver_iff htracks hup hreport
  | media msg status hup hreport => exact h.media_iff htracks hup hreport
  | beginNone => simp only [Timely, h]
  | begin command call device hbegin =>
      obtain ⟨hmid, hcall, hchannel, htransport, hmedia⟩ := begin_spec hbegin
      simp only [Timely, iff_true]
      apply h.of_due
      · simp only [Opened, hchannel, imp_self]
      · apply htransport
      · rfl
      · rintro mid (⟨other, hother, hsame⟩ | hdue)
        · rcases List.mem_append.mp hother with hother | hother
          · left
            use other, hother
          · right
            rw [List.mem_singleton.mp hother, hcall] at hsame
            use hmid
        · right
          rwa [hmedia] at hdue
  | finish call =>
      simp only [Timely, iff_true]
      apply h.of_due
      · intro hopened
        apply hopened
      · rfl
      · rfl
      · rintro mid (⟨other, hother, hsame⟩ | hdue)
        · left
          use other, List.mem_of_mem_eraseIdx hother
        · right
          apply hdue

theorem inDate_init (env : Env) :
  InDate env .init
  := by
  rw [inDate_iff]
  rintro (hup | hlost)
  · cases hup
  · cases hlost

/-- In all states of a run everything is in date just if all its steps are timely. -/
theorem inDate_iff_timely
    (env : Env) {as : List Act} {s : System}
    (h : Lts.run (System.step env) .init as = some s) :
  (∀ bs u, bs <+: as → Lts.run (System.step env) .init bs = some u → InDate env u)
    ↔ Lts.Guarded (System.step env) (Timely env) .init as
  := by
  apply Lts.forall_run_iff_guarded (I := Tracks) Tracks.init
  · apply inDate_init
  · intro t a u ht hstep
    apply ht.step (Step.of_step hstep)
  · intro t a u ht hdate hstep
    apply inDate_step_iff ht hdate (Step.of_step hstep)
  · apply h

/-- The command that a step finishes, and the message that it puts on the channel. -/
def System.sent (env : Env) (s : System) : Act → Option (Call × CastMessage)
  | .finish k => s.calls[k]?.bind fun call =>
      (s.device.sendMediaMsg env call.payload).map fun msg => (call, msg)
  | _ => none

/-- In a run of timely steps each message that is sent is addressed to a transport id that was
reported over the channel, and has the id of a media session of that transport. -/
theorem sent_of_timely
    {env : Env} {as : List Act} {s : System} (h : Lts.run (System.step env) .init as = some s)
    (htimely : Lts.Guarded (System.step env) (Timely env) .init as) {a : Act} {call : Call}
    {msg : CastMessage} (hsent : s.sent env a = some (call, msg)) :
  Reported msg.destinationId s.history ∧ InSession msg.destinationId call.mid s.history
  := by
  have hdate : Tracks s ∧ InDate env s := by
    apply Lts.guarded_induction (P := fun _ s => Tracks s ∧ InDate env s) _ _ htimely h
    · exact ⟨Tracks.init, inDate_init env⟩
    · rintro _ t a u _ ⟨htracks, hdate⟩ ha hstep
      use htracks.step (Step.of_step hstep)
      apply (inDate_step_iff htracks hdate (Step.of_step hstep)).mpr ha
  cases a with
  | finish k =>
      obtain ⟨call', hcall, hmsg⟩ := Option.bind_eq_some_iff.mp hsent
      obtain ⟨msg', hmsg, heq⟩ := Option.map_eq_some_iff.mp hmsg
      cases heq
      exact hdate.2 call (.inl (List.mem_of_getElem? hcall)) msg hmsg
  | connect | disconnect | lose | receive | begin => cases hsent

/-! ### A session -/

/-- Members of strings and integers, without white space. -/
def flat : Json → Bytes
  | .object members =>
      0x7B :: [0x2C].intercalate (members.map fun m => Json.printString m.1 ++ 0x3A ::
        (match m.2 with
        | .string s => Json.printString s
        | .integer n => JsonText.printInteger n
        | _ => [])) ++ [0x7D]
  | _ => []

/-- The parser, and the serialiser for messages without floating-point numbers; there are none
to convert. -/
def session : Env where
  parse := (JsonText.codec 2).parse
  dump := flat
  truncate := fun _ => 0
  widen := fun _ => 0

/-- A status of the receiver that runs an app. -/
def receiverJson (transportId : Bytes) : Json :=
  .object
    [(Bytes.ofAscii "status", .object [(Bytes.ofAscii "applications",
        .array [.object [(Bytes.ofAscii "transportId", .string transportId)]])]),
      (Bytes.ofAscii "type", .string (Bytes.ofAscii "RECEIVER_STATUS"))]

/-- A media status with the given session. -/
def mediaJson (mid : Int) : Json :=
  .object
    [(Bytes.ofAscii "status", .array [.object [(Bytes.ofAscii "mediaSessionId", .integer mid)]]),
      (Bytes.ofAscii "type", .string (Bytes.ofAscii "MEDIA_STATUS"))]

/-- A message to the device in a namespace. -/
def message (namespaceUri : Bytes) (j : Json) : CastMessage where
  sourceId := Bytes.ofAscii "receiver-0"
  destinationId := Bytes.ofAscii "*"
  namespaceUri := namespaceUri
  payloadUtf8 := JsonText.print 2 0 j

theorem handle_message
    {j : Json} (hproper : j.Proper) (hvalid : j.Valid) (namespaceUri : Bytes) :
  handleMessage session (message namespaceUri j)
    = if namespaceUri = nsReceiver then handleReceiverStatus session j
      else if namespaceUri = nsMedia then handleMediaStatus session j
      else .ignored
  := by
  have hparse : session.parse (JsonText.print 2 0 j) = some j :=
    JsonText.codec_parse_print hproper hvalid 2
  rw [handleMessage, message, hparse]

/-- The transport of a first session. -/
def web1 : Bytes :=
  Bytes.ofAscii "web-1"

/-- The transport of a second session. -/
def web2 : Bytes :=
  Bytes.ofAscii "web-2"

theorem handle_receiverJson {transportId : Bytes} (hvalid : Utf8.Valid transportId) :
  handleMessage session (message nsReceiver (receiverJson transportId))
    = .receiver { transportId, isIdleScreen := false }
  := by
  have hkeys : Json.KeyLt (Bytes.ofAscii "status") (Bytes.ofAscii "type") := by decide
  have hproper : (receiverJson transportId).Proper := by
    simp [receiverJson, hkeys]
  have hjson : (receiverJson transportId).Valid := by
    simp only [receiverJson, Json.valid_object, Json.valid_array, Json.valid_string,
      List.forall_mem_cons, hvalid]
    decide
  rw [handle_message hproper hjson, if_pos rfl]
  rfl

theorem web1_ne_web2 : web1 ≠ web2 := by
  decide

theorem valid_web1 : Utf8.Valid web1 := by
  decide

theorem valid_web2 : Utf8.Valid web2 := by
  decide

theorem handle_media :
  handleMessage session (message nsMedia (mediaJson 5))
    = .media { sessionId := 5, playerState := Bytes.ofAscii "UNKNOWN" }
  := by
  rw [handle_message (by decide +kernel) (by decide +kernel), if_neg (by decide), if_pos rfl]
  rfl

/-- A connection, an app, a media session in it, and `play`. -/
def playing : List Act :=
  [.connect .connected, .receive (message nsReceiver (receiverJson web1)),
    .receive (message nsMedia (mediaJson 5)), .begin .play, .finish 0]

theorem inDate_playing :
  Lts.Guarded (System.step session) (Timely session) .init playing ∧
    ∀ bs u, bs <+: playing → Lts.run (System.step session) .init bs = some u → InDate session u
  := by
  have hne : web1 ≠ [] := by decide
  have hrun : ∃ s, Lts.run (System.step session) .init playing = some s := by
    simp [playing, Lts.run, System.step, System.init, connect, handle_receiverJson valid_web1,
      handle_media, takeReceiverStatus, takeMediaStatus, CastDevice.begin, hne]
  have hguarded : Lts.Guarded (System.step session) (Timely session) .init playing := by
    have hreceiver := handle_receiverJson valid_web1
    have hconnect : ∀ s : System, s.device.transportId = [] →
        Timely session s (.connect .connected) := fun _ hempty => .inr (.inl hempty)
    have hbegin : ∀ s, Timely session s (.begin .play) := fun _ => trivial
    have hfinish : ∀ s, Timely session s (.finish 0) := fun _ => trivial
    simp [playing, Lts.Guarded, hconnect, timely_receiver hreceiver, timely_media handle_media,
      hbegin, hfinish, System.step, System.init, connect, hreceiver, handle_media,
      takeReceiverStatus, takeMediaStatus, Quiet, Heard]
  obtain ⟨s, hs⟩ := hrun
  use hguarded
  apply (inDate_iff_timely session hs).mpr hguarded

/-- The app `web-1` has the media session 5; then the app `web-2` runs, and `play` would be
addressed to it with the media session of the other. -/
theorem not_inDate :
  ¬ ∀ (env : Env) (as : List Act) (s : System),
      Lts.run (System.step env) .init as = some s → InDate env s
  := by
  intro h
  have hrun : Lts.run (System.step session) .init
      [.connect .connected, .receive (message nsReceiver (receiverJson web1)),
        .receive (message nsMedia (mediaJson 5)),
        .receive (message nsReceiver (receiverJson web2))]
      = some
        { device :=
            { channel := some .up
              transportId := web2
              mediaSessionId := 5
              requestId := 1
              lastStatus := some { transportId := web2, isIdleScreen := false }
              lastMediaStatus :=
                some { sessionId := 5, playerState := Bytes.ofAscii "UNKNOWN" } }
          calls := []
          history := [.receiver web2, .media 5, .receiver web1, .connected] } := by
    simp [Lts.run, System.step, System.init, connect, handle_receiverJson valid_web1,
      handle_receiverJson valid_web2, handle_media, takeReceiverStatus, takeMediaStatus]
  have hdate := inDate_iff.mp (h session _ _ hrun) (.inl rfl) (by decide) 5
    (.inr ⟨by decide, rfl⟩)
  obtain ⟨-, hother⟩ | ⟨hother, -⟩ := hdate.2.2
  · exact web1_ne_web2 hother
  · exact web1_ne_web2 hother

end CastDevice

end NexusMainframe
