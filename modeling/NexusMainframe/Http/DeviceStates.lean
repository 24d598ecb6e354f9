import NexusMainframe.Http.RoomController

/-!
# The states of the devices over HTTP

A command for a device is applied as a whole or not at all, as long as the file can be written.
In runs of requests from an empty registry it always can, and the state of every device is an
object: a new device has the empty one, and the payload of a command is an object.
-/

namespace NexusMainframe

open Registry (IsSaveable)

namespace Http

variable {κ : Type}

/-! ### One command -/

/-- The registries, their files and the bus are as they were. -/
structure Unchanged (s t : Services κ) : Prop where
  memory : t.memory = s.memory
  deviceFile : t.deviceFile = s.deviceFile
  roomFile : t.roomFile = s.roomFile
  bus : t.bus = s.bus

/-- The payload in the body of a command has these members; it is read as the empty object if it
is absent or `null`. -/
def HasPayload (body : Json) (members : List (Bytes × Json)) : Prop :=
  body.member (Bytes.ofAscii "payload") = some (.object members)
    ∨ members = [] ∧ (body.member (Bytes.ofAscii "payload") = none
      ∨ body.member (Bytes.ofAscii "payload") = some .null)

/-- A command that can be applied: its device is registered under an id that is UTF-8, and its body
is JSON with a string for the command and members for the payload. -/
def Applicable (c : Json.Codec) (s : Services κ) (id raw : Bytes) : Prop :=
  Utf8.Valid id ∧ id ∈ s.memory.devices ∧ ∃ body command members,
    c.parse raw = some body ∧ body.member (Bytes.ofAscii "command") = some (.string command)
      ∧ HasPayload body members

/-- The members of a payload with the command. -/
def withCommand (command : Bytes) (members : List (Bytes × Json)) : Json :=
  .object (Json.setMember (Bytes.ofAscii "_command") (.string command) members)

/-- The services are unchanged, and the response, if there is one, has another status than 200. -/
structure Refused (s : Services κ) (out : Services κ × Option Response) : Prop where
  unchanged : Unchanged s out.1
  status : ∀ response ∈ out.2, response.status ≠ 200

/-- The payload has been merged into the state of the device and the registry saved, one event
has been published, and the response has the status 200. -/
def Applied (c pretty : Json.Codec) (m : Moment) (s : Services κ) (id raw : Bytes)
    (out : Services κ × Option Response) : Prop :=
  ∃ body command members d text event answer,
    c.parse raw = some body ∧ body.member (Bytes.ofAscii "command") = some (.string command)
      ∧ HasPayload body members
      ∧ s.memory.devices.lookup id = some d
      ∧ out.1.memory.devices.lookup id
        = some { d with state := Json.mergePatch d.state (withCommand command members) }
      ∧ (∀ other ≠ id, out.1.memory.devices.lookup other = s.memory.devices.lookup other)
      ∧ out.1.memory.rooms = s.memory.rooms ∧ out.1.roomFile = s.roomFile
      ∧ DeviceRegistry.save pretty.dump (m.devices.list out.1.memory.devices) = some text
      ∧ out.1.deviceFile = some text
      ∧ c.dump (DeviceService.commandEvent id (withCommand command members)) = some event
      ∧ out.1.bus = { s.bus with
          eventQueue := s.bus.eventQueue ++ [⟨Bytes.ofAscii "device.command", .string event⟩] }
      ∧ out.2 = some ⟨200, answer⟩

/-- The file of the devices can be written after any command for a device. -/
def Writes (pretty : Json.Codec) (m : Moment) (devices : DeviceRegistry) (id : Bytes) : Prop :=
  ∀ patch : Json, patch.WellFormed →
    DeviceRegistry.save pretty.dump
      (m.devices.list (DeviceRegistry.updateState Json.mergePatch devices id patch).1) ≠ none

section

variable {c pretty : Json.Codec} {m : Moment} {s t : Services κ} {id : Bytes}

theorem Unchanged.refl (s : Services κ) : Unchanged s s :=
  ⟨rfl, rfl, rfl, rfl⟩

theorem Refused.threw (h : Unchanged s t) : Refused s (t, none) :=
  ⟨h, fun _ h => nomatch h⟩

theorem Refused.send
    (h : Unchanged s t) (c : Json.Codec) {result : Result} (hstatus : result.httpStatus ≠ 200) :
  Refused s (send c t result)
  := by
  use h
  intro response hresponse
  obtain ⟨body, -, rfl⟩ := Option.map_eq_some_iff.mp hresponse
  exact hstatus

/-- A line is logged just if its level, source and message are UTF-8. -/
theorem emit_eq_none_iff
    (hc : c.Spec) (b : LogBroadcaster) (now : LogTime) (level source message : Bytes) :
  b.emit c.dump now level source message = none
    ↔ ¬ (Utf8.Valid level ∧ Utf8.Valid source ∧ Utf8.Valid message)
  := by
  have hkeys : Utf8.Valid (Bytes.ofAscii "level") ∧ Utf8.Valid (Bytes.ofAscii "message")
      ∧ Utf8.Valid (Bytes.ofAscii "source") ∧ Utf8.Valid (Bytes.ofAscii "timestamp") := by
    decide +kernel
  rw [LogBroadcaster.emit, LogBroadcaster.log, Option.map_eq_none_iff, LogBroadcaster.entryToJson,
    hc.dump_eq_none, Json.ofStrings, Json.valid_object]
  simp [hkeys, LogBroadcaster.valid_nowIso]
  tauto

/-- What is logged is UTF-8. -/
theorem valid_of_emit
    (hc : c.Spec) {now : LogTime} {b b' : LogBroadcaster} {level source message : Bytes}
    {frames : List Bytes} (h : b.emit c.dump now level source message = some (b', frames)) :
  Utf8.Valid message
  := by
  by_contra hnot
  rw [(emit_eq_none_iff hc b now level source message).mpr fun hvalid => hnot hvalid.2.2] at h
  cases h

/-- The line that is logged for a command. -/
theorem valid_commandMessage_iff {command : Bytes} (hcommand : Utf8.Valid command) (id : Bytes) :
  Utf8.Valid (Bytes.ofAscii "Command '" ++ command ++ Bytes.ofAscii "' for device '" ++ id
    ++ Bytes.ofAscii "'") ↔ Utf8.Valid id
  := by
  have hfront : Utf8.Valid (Bytes.ofAscii "Command '" ++ command
      ++ Bytes.ofAscii "' for device '") := by
    apply Utf8.Valid.append _ (by decide +kernel)
    apply Utf8.Valid.append (by decide +kernel) hcommand
  rw [Utf8.valid_append_ascii (Bytes.ofAscii_lt (by decide)), hfront.append_iff]

/-- A payload with members is extended. -/
theorem commandPayload_of_hasPayload
    {body : Json} {command command' : Bytes} {members : List (Bytes × Json)}
    (hbody : body.member (Bytes.ofAscii "command") = some (.string command'))
    (h : HasPayload body members) :
  DeviceController.commandPayload body command = some (withCommand command members)
  := by
  obtain ⟨bodyMembers, rfl⟩ := Json.exists_object_of_member hbody
  rw [DeviceController.commandPayload, Json.valueAs_some]
  obtain hmember | ⟨rfl, hnone | hnull⟩ := h
  · rw [hmember]
    rfl
  · rw [hnone]
    rfl
  · rw [hnull]
    rfl

/-- A payload that can be extended has members, or is none. -/
theorem exists_withCommand_of_commandPayload
    {body payload : Json} {command : Bytes}
    (h : DeviceController.commandPayload body command = some payload) :
  ∃ members, HasPayload body members ∧ payload = withCommand command members
  := by
  unfold DeviceController.commandPayload at h
  split at h
  next members hvalue =>
    obtain rfl := Option.some.inj h
    use members
    rcases Json.valueAs_eq_some hvalue with ⟨hnone, hmembers⟩ | ⟨v, hv, hmembers⟩
    · use Or.inr ⟨Json.object.inj hmembers, Or.inl hnone⟩
      rfl
    · obtain rfl := Option.some.inj hmembers
      use Or.inl hv
      rfl
  next hvalue =>
    obtain rfl := Option.some.inj h
    use []
    rcases Json.valueAs_eq_some hvalue with ⟨-, hmembers⟩ | ⟨v, hv, hmembers⟩
    · cases hmembers
    · obtain rfl := Option.some.inj hmembers
      use Or.inr ⟨rfl, Or.inr hv⟩
      rfl
  next => cases h

/-- The members of the payload and the command come from the body. -/
theorem wellFormed_withCommand
    {body : Json} (hbody : body.WellFormed) {command : Bytes}
    (hcommand : body.member (Bytes.ofAscii "command") = some (.string command))
    {members : List (Bytes × Json)} (hpayload : HasPayload body members) :
  (withCommand command members).WellFormed
  := by
  have hkey : Utf8.Valid (Bytes.ofAscii "_command") := by decide +kernel
  have hmembers : (Json.object members).WellFormed := by
    rcases hpayload with hmember | ⟨rfl, -⟩
    · exact ⟨hbody.1.member hmember, hbody.2.member hmember⟩
    · decide
  apply hmembers.setMember hkey
  exact ⟨hbody.1.member hcommand, hbody.2.member hcommand⟩

/-- The controller hands the payload of the body on to the service. -/
structure HandsOn (c pretty : Json.Codec) (m : Moment) (s : Services κ) (id raw command : Bytes)
    (members : List (Bytes × Json)) (log : LogBroadcaster) : Prop where
  body : ∃ body, c.parse raw = some body
    ∧ body.member (Bytes.ofAscii "command") = some (.string command) ∧ HasPayload body members
  valid_id : Utf8.Valid id
  payload : (withCommand command members).WellFormed
  out : DeviceController.command c pretty m s id raw
    = sendResult c (DeviceService.command c pretty m { s with log := log } id
        (withCommand command members))

/-- A body with a command and a payload is handed on, if the id is UTF-8. -/
theorem exists_handsOn
    (hc : c.Spec) (pretty : Json.Codec) (m : Moment) (s : Services κ) {raw command : Bytes}
    {body : Json} {members : List (Bytes × Json)} (hid : Utf8.Valid id)
    (hbody : c.parse raw = some body)
    (hcommand : body.member (Bytes.ofAscii "command") = some (.string command))
    (hmembers : HasPayload body members) :
  ∃ log, HandsOn c pretty m s id raw command members log
  := by
  have hproper := hc.proper_of_parse raw body hbody
  have hlevel : Utf8.Valid (Bytes.ofAscii "info")
      ∧ Utf8.Valid (Bytes.ofAscii "DeviceController") := by decide +kernel
  have hmessage := (valid_commandMessage_iff (hproper.2.member hcommand) id).mpr hid
  cases hemit : s.log.emit c.dump m.now (Bytes.ofAscii "info") (Bytes.ofAscii "DeviceController")
      (Bytes.ofAscii "Command '" ++ command ++ Bytes.ofAscii "' for device '" ++ id
        ++ Bytes.ofAscii "'") with
  | none => exact absurd ⟨hlevel.1, hlevel.2, hmessage⟩ ((emit_eq_none_iff hc _ _ _ _ _).mp hemit)
  | some logged =>
      use logged.1, ⟨body, hbody, hcommand, hmembers⟩, hid,
        wellFormed_withCommand hproper hcommand hmembers
      simp only [DeviceController.command, hbody, hcommand, hemit,
        commandPayload_of_hasPayload hcommand hmembers]

/-- A command is refused, or handed on. -/
theorem command_cases
    (hc : c.Spec) (pretty : Json.Codec) (m : Moment) (s : Services κ) (id raw : Bytes) :
  Refused s (DeviceController.command c pretty m s id raw)
    ∨ ∃ command members log, HandsOn c pretty m s id raw command members log
  := by
  have hsame := Unchanged.refl s
  cases hbody : c.parse raw with
  | none =>
      left
      simp only [DeviceController.command, hbody]
      apply Refused.send hsame c (by decide)
  | some body =>
      by_cases hpayload : Utf8.Valid id ∧ ∃ command members,
          body.member (Bytes.ofAscii "command") = some (.string command) ∧ HasPayload body members
      · right
        obtain ⟨hid, command, members, hcommand, hmembers⟩ := hpayload
        use command, members
        apply exists_handsOn hc pretty m s hid hbody hcommand hmembers
      · left
        unfold DeviceController.command
        rw [hbody]
        dsimp only
        split
        next => exact Refused.send hsame c (by decide)
        next command hcommand =>
          split
          next => exact Refused.threw hsame
          next log frames hemit =>
            have hvalid := (hc.proper_of_parse raw body hbody).2.member hcommand
            have hid := (valid_commandMessage_iff hvalid id).mp (valid_of_emit hc hemit)
            split
            next => exact Refused.threw ⟨rfl, rfl, rfl, rfl⟩
            next payload hcommandPayload =>
              obtain ⟨members, hmembers, -⟩ :=
                exists_withCommand_of_commandPayload hcommandPayload
              exact absurd ⟨hid, command, members, hcommand, hmembers⟩ hpayload
        next => exact Refused.threw hsame

/-- A command for a device that is there is applied. -/
theorem applied_of_lookup
    (hc : c.Spec) (hactive : s.bus.isShuttingDown = false)
    (hwrites : Writes pretty m s.memory.devices id) {raw command : Bytes}
    {members : List (Bytes × Json)} {log : LogBroadcaster}
    (h : HandsOn c pretty m s id raw command members log) {d : Device}
    (hd : s.memory.devices.lookup id = some d) :
  Applied c pretty m s id raw (DeviceController.command c pretty m s id raw)
  := by
  obtain ⟨⟨body, hbody, hcommand, hmembers⟩, hid, hpayload, hsend⟩ := h
  have hevent : (DeviceService.commandEvent id (withCommand command members)).Valid := by
    have hkeys : Utf8.Valid (Bytes.ofAscii "id") ∧ Utf8.Valid (Bytes.ofAscii "payload") := by
      decide +kernel
    rw [DeviceService.commandEvent, Json.valid_object]
    simp [hkeys, hid, hpayload.2]
  obtain ⟨event, hevent⟩ := hc.exists_dump hevent
  have hmessage : (NexusMainframe.DeviceService.applied id).toJson.Valid := by
    rw [Result.valid_toJson]
    apply Utf8.Valid.append _ (by decide +kernel)
    apply Utf8.Valid.append (by decide +kernel) hid
  obtain ⟨answer, hanswer⟩ := hc.exists_dump hmessage
  have hupdate : (DeviceRegistry.updateState Json.mergePatch s.memory.devices id
      (withCommand command members)).1
        = s.memory.devices.insert id
            { d with state := Json.mergePatch d.state (withCommand command members) } := by
    rw [DeviceRegistry.updateState, hd]
  obtain ⟨text, htext⟩ := Option.ne_none_iff_exists'.mp (hwrites _ hpayload)
  rw [hupdate] at htext
  have hout : sendResult c (DeviceService.command c pretty m { s with log := log } id
      (withCommand command members))
        = ({ s.setDevices (s.memory.devices.insert id
              { d with state := Json.mergePatch d.state (withCommand command members) }) with
              deviceFile := some text
              bus := s.bus.publish ⟨Bytes.ofAscii "device.command", .string event⟩
              log := log },
            some ⟨200, answer⟩) := by
    simp only [DeviceService.command, DeviceRegistry.exists', Registry.exists'_eq, hd, saveDevices,
      Services.setDevices, hupdate, htext, hevent, Option.isSome_some, Bool.not_true,
      Bool.false_eq_true, if_false, sendResult, send, hanswer]
    rfl
  rw [hsend, hout]
  use body, command, members, d, text, event, answer, hbody, hcommand, hmembers, hd
  use Finmap.lookup_insert _
  use fun other hother => Finmap.lookup_insert_of_ne _ hother
  use rfl, rfl, htext, rfl, hevent
  have hpublish : ∀ ev, s.bus.publish ev
      = { s.bus with eventQueue := s.bus.eventQueue ++ [ev] } := by
    intro ev
    simp [EventBus.Bus.publish, hactive]
  use hpublish _

/-- A command that can be applied is applied, and any other is refused. -/
theorem applied_or_refused
    (hc : c.Spec) (m : Moment) (raw : Bytes) (hactive : s.bus.isShuttingDown = false)
    (hwrites : Writes pretty m s.memory.devices id) :
  (Applicable c s id raw
      → Applied c pretty m s id raw (DeviceController.command c pretty m s id raw))
    ∧ (¬ Applicable c s id raw → Refused s (DeviceController.command c pretty m s id raw))
  := by
  constructor
  · rintro ⟨hid, hmem, body, command, members, hbody, hcommand, hmembers⟩
    obtain ⟨log, hhands⟩ := exists_handsOn hc pretty m s hid hbody hcommand hmembers
    obtain ⟨d, hd⟩ := Finmap.mem_iff.mp hmem
    exact applied_of_lookup hc hactive hwrites hhands hd
  · intro hnot
    rcases command_cases hc pretty m s id raw with hrefused | ⟨command, members, log, hhands⟩
    · apply hrefused
    · have hmem : id ∉ s.memory.devices := by
        intro hmem
        obtain ⟨body, hbody, hcommand, hmembers⟩ := hhands.body
        exact hnot ⟨hhands.valid_id, hmem, body, command, members, hbody, hcommand, hmembers⟩
      have hnone := Finmap.lookup_eq_none.mpr hmem
      have hunchanged : Unchanged s { s with log := log } := ⟨rfl, rfl, rfl, rfl⟩
      have hrefused : Refused s (send c { s with log := log }
          (NexusMainframe.DeviceService.notFound id)) :=
        Refused.send hunchanged c (by simp [NexusMainframe.DeviceService.notFound, Result.notFound])
      rw [hhands.out, DeviceService.command, DeviceRegistry.exists', Registry.exists'_eq, hnone]
      exact hrefused

end

/-! ### Runs of requests -/

/-- The requests of the device and room routes. -/
inductive HttpRequest where
  | deviceIndex
  | deviceCreate (raw : Bytes)
  | deviceShow (id : Bytes)
  | deviceDestroy (id : Bytes)
  | deviceCommand (id raw : Bytes)
  | roomIndex
  | roomCreate (raw : Bytes)
  | roomShow (id : Bytes)
  | roomDestroy (id : Bytes)
  | roomAddDevice (roomId deviceId : Bytes)
  | roomRemoveDevice (roomId deviceId : Bytes)

/-- The handler of a route. -/
def handle (c pretty : Json.Codec) (m : Moment) (s : Services κ) :
    HttpRequest → Services κ × Option Response
  | .deviceIndex => DeviceController.index c m s
  | .deviceCreate raw => DeviceController.create c pretty m s raw
  | .deviceShow id => DeviceController.show' c s id
  | .deviceDestroy id => DeviceController.destroy c pretty m s id
  | .deviceCommand id raw => DeviceController.command c pretty m s id raw
  | .roomIndex => RoomController.index c m s
  | .roomCreate raw => RoomController.create c pretty m s raw
  | .roomShow id => RoomController.show' c s id
  | .roomDestroy id => RoomController.destroy c pretty m s id
  | .roomAddDevice roomId deviceId => RoomController.addDevice c pretty m s roomId deviceId
  | .roomRemoveDevice roomId deviceId =>
      RoomController.removeDevice c pretty m s roomId deviceId

/-- The services after some requests, each at its moment. -/
def handleAll (c pretty : Json.Codec) (s : Services κ) (qs : List (Moment × HttpRequest)) :
    Services κ :=
  qs.foldl (fun s q => (handle c pretty q.1 s q.2).1) s

/-- The state of every device is an object. -/
def HasObjectStates (devices : DeviceRegistry) : Prop :=
  ∀ id d, devices.lookup id = some d → ∃ members, d.state = .object members

/-- A request to a service whose strings are UTF-8, and whose payload is an object. -/
def HasObjectPayload : Request → Prop
  | .deviceAdd id name type => Utf8.Valid id ∧ Utf8.Valid name ∧ Utf8.Valid type
  | .deviceCommand id payload =>
      Utf8.Valid id ∧ payload.WellFormed ∧ ∃ members, payload = .object members
  | _ => True

/-- A request that adds something has a generated id for it, and a name that is UTF-8 for a
room. -/
def Generates : Request → Prop
  | .deviceAdd id _ _ => ∃ drawn, id = generateId drawn
  | .roomAdd id name => (∃ drawn, id = generateId drawn) ∧ Utf8.Valid name
  | _ => True

/-- A registry that can be saved, with objects for states. -/
structure HoldsObjects (devices : DeviceRegistry) : Prop where
  saveable : IsSaveable Device.entry devices
  states : HasObjectStates devices

theorem holdsObjects_empty :
  HoldsObjects ∅
  := by
  use Registry.isSaveable_empty Device.entry
  intro id d h
  cases h

section

variable {c pretty : Json.Codec} {m : Moment} {s : Services κ} {r : Registries} {q : Request}

theorem keepsWellFormed_mergePatch :
  KeepsWellFormed Json.mergePatch
  := fun _ _ hj hpatch => hj.mergePatch hpatch

theorem HasObjectStates.insert
    {devices : DeviceRegistry} (h : HasObjectStates devices) (id : Bytes) {d : Device}
    (hd : ∃ members, d.state = .object members) :
  HasObjectStates (devices.insert id d)
  := by
  intro id' d' hid'
  rcases FiniteMap.lookup_insert_eq_some.mp hid' with ⟨-, rfl⟩ | ⟨-, hid'⟩
  · apply hd
  · apply h id' d' hid'

/-- A request keeps the states objects. -/
theorem HoldsObjects.serve (h : HoldsObjects r.devices) (hq : HasObjectPayload q) :
  HoldsObjects (serve Json.mergePatch q r).1.devices
  := by
  cases q with
  | deviceAdd id name type =>
      simp only [NexusMainframe.serve]
      split
      next => exact h
      next =>
        split
        next => exact h
        next hnone =>
          have hd : (NexusMainframe.DeviceService.device id name type).toJson.WellFormed := by
            apply Device.wellFormed_toJson.mpr
            have hstate : (Json.object []).WellFormed := by decide
            exact ⟨hq.1, hq.2.1, hq.2.2, hstate⟩
          use h.saveable.insert hd
          apply h.states.insert _ ⟨[], rfl⟩
  | deviceRemove id =>
      simp only [NexusMainframe.serve]
      split
      next => exact h
      next d hd =>
        have hremove := h.saveable.remove id
        rw [Registry.remove_of_lookup_some hd] at hremove
        use hremove
        intro id' d' hid'
        apply h.states id' d' (FiniteMap.lookup_erase_eq_some.mp hid').2
  | deviceCommand id payload =>
      simp only [NexusMainframe.serve]
      split
      next => exact h
      next d hd =>
        obtain ⟨hid, hpayload, members, rfl⟩ := hq
        have hop : (DeviceOp.updateState id (.object members)).WellFormed := ⟨hid, hpayload⟩
        have hupdate := DeviceOp.isSaveable_apply keepsWellFormed_mergePatch h.saveable hop
        rw [DeviceOp.apply_updateState, hd] at hupdate
        use hupdate
        apply h.states.insert
        simp only [Json.mergePatch]
        exact ⟨_, rfl⟩
  | roomAdd id name =>
      simp only [NexusMainframe.serve]
      split
      next => exact h
      next => split <;> exact h
  | roomRemove id =>
      simp only [NexusMainframe.serve]
      split <;> exact h
  | roomAddDevice roomId deviceId =>
      simp only [NexusMainframe.serve]
      split
      next => exact h
      next => exact h
      next => split <;> exact h
  | roomRemoveDevice roomId deviceId =>
      simp only [NexusMainframe.serve]
      split
      next => exact h
      next => split <;> exact h

theorem services_sendResult (c : Json.Codec) (out : Services κ × Option Result) :
  (sendResult c out).1 = out.1
  := by
  obtain ⟨s, result⟩ := out
  cases result <;> rfl

theorem memory_sendResult_of_serves
    {out : Services κ × Option Result} (h : Serves q s out) :
  (sendResult c out).1.memory = (NexusMainframe.serve Json.mergePatch q s.memory).1
  := by
  rw [services_sendResult]
  apply h.1

theorem valid_generateId (drawn : UInt64) :
  Utf8.Valid (generateId drawn)
  := by
  apply Utf8.valid_of_ascii
  intro b hb
  obtain ⟨i, -, rfl⟩ := List.mem_map.mp hb
  have hdigit := Json.isHexDigit_hexDigit
    (Nat.mod_lt (drawn.toNat / 16 ^ (15 - i)) (by decide : 0 < 16))
  unfold Json.IsHexDigit Json.IsDigit at hdigit
  omega

/-- A handler leaves the services but for the log, or calls a function of theirs. -/
inductive Handled (c pretty : Json.Codec) (m : Moment) (s : Services κ) : Services κ → Prop where
  | stays {t} (unchanged : Unchanged s t) : Handled c pretty m s t
  | deviceAdd {name type} (valid_name : Utf8.Valid name) (valid_type : Utf8.Valid type) :
      Handled c pretty m s (DeviceService.add pretty m s name type).1
  | deviceRemove (id : Bytes) : Handled c pretty m s (DeviceService.remove pretty m s id).1
  | deviceCommand {id command members log} (valid_id : Utf8.Valid id)
      (payload : (withCommand command members).WellFormed) :
      Handled c pretty m s (DeviceService.command c pretty m { s with log := log } id
        (withCommand command members)).1
  | roomAdd {name} (valid_name : Utf8.Valid name) :
      Handled c pretty m s (RoomService.add pretty m s name).1
  | roomRemove (id : Bytes) : Handled c pretty m s (RoomService.remove pretty m s id).1
  | roomAddDevice (roomId deviceId : Bytes) :
      Handled c pretty m s (RoomService.addDevice pretty m s roomId deviceId).1
  | roomRemoveDevice (roomId deviceId : Bytes) :
      Handled c pretty m s (RoomService.removeDevice pretty m s roomId deviceId).1

theorem handled
    (hc : c.Spec) (pretty : Json.Codec) (m : Moment) (s : Services κ) (q : HttpRequest) :
  Handled c pretty m s (handle c pretty m s q).1
  := by
  have hstays : Handled c pretty m s s := .stays (Unchanged.refl s)
  have hempty : Utf8.Valid [] := by decide
  cases q with
  | deviceIndex | roomIndex => exact hstays
  | deviceShow id =>
      rw [handle, DeviceController.show']
      split <;> exact hstays
  | roomShow id =>
      rw [handle, RoomController.show']
      split <;> exact hstays
  | deviceCreate raw =>
      rw [handle, DeviceController.create]
      split
      next => exact hstays
      next body hbody =>
        have hvalid := (hc.proper_of_parse raw body hbody).2
        split
        next name type hname htype =>
          rw [services_sendResult]
          exact .deviceAdd (hvalid.valueAs_asString hempty hname)
            (hvalid.valueAs_asString hempty htype)
        next => exact hstays
  | roomCreate raw =>
      rw [handle, RoomController.create]
      split
      next => exact hstays
      next body hbody =>
        have hvalid := (hc.proper_of_parse raw body hbody).2
        split
        next name hname =>
          rw [services_sendResult]
          exact .roomAdd (hvalid.valueAs_asString hempty hname)
        next => exact hstays
  | deviceCommand id raw =>
      rw [handle]
      rcases command_cases hc pretty m s id raw with hrefused | ⟨command, members, log, hhands⟩
      · exact .stays hrefused.unchanged
      · rw [hhands.out, services_sendResult]
        exact .deviceCommand hhands.valid_id hhands.payload
  | deviceDestroy id =>
      rw [handle, DeviceController.destroy, services_sendResult]
      exact .deviceRemove id
  | roomDestroy id =>
      rw [handle, RoomController.destroy, services_sendResult]
      exact .roomRemove id
  | roomAddDevice roomId deviceId =>
      rw [handle, RoomController.addDevice, services_sendResult]
      exact .roomAddDevice roomId deviceId
  | roomRemoveDevice roomId deviceId =>
      rw [handle, RoomController.removeDevice, services_sendResult]
      exact .roomRemoveDevice roomId deviceId

/-- The registries stay then, or a request has been made to them. -/
theorem Handled.memory {t : Services κ} (h : Handled c pretty m s t) :
  t.memory = s.memory
    ∨ ∃ q, HasObjectPayload q ∧ Generates q
      ∧ t.memory = (NexusMainframe.serve Json.mergePatch q s.memory).1
  := by
  cases h with
  | stays h =>
      left
      apply h.memory
  | @deviceAdd name type hname htype =>
      right
      use .deviceAdd (generateId m.drawn) name type, ⟨valid_generateId m.drawn, hname, htype⟩
      use ⟨m.drawn, rfl⟩, (DeviceService.serves_add name type).1
  | deviceRemove id =>
      right
      use .deviceRemove id, trivial, trivial, (DeviceService.serves_remove id).1
  | @deviceCommand id command members _ hid hpayload =>
      right
      use .deviceCommand id (withCommand command members), ⟨hid, hpayload, _, rfl⟩, trivial
      exact (DeviceService.serves_command id _).1
  | @roomAdd name hname =>
      right
      use .roomAdd (generateRoomId m.drawn) name, trivial, ⟨⟨m.drawn, rfl⟩, hname⟩
      exact (RoomService.serves_add name).1
  | roomRemove id =>
      right
      use .roomRemove id, trivial, trivial, (RoomService.serves_remove id).1
  | roomAddDevice roomId deviceId =>
      right
      use .roomAddDevice roomId deviceId, trivial, trivial
      exact (RoomService.serves_addDevice roomId deviceId).1
  | roomRemoveDevice roomId deviceId =>
      right
      use .roomRemoveDevice roomId deviceId, trivial, trivial
      exact (RoomService.serves_removeDevice roomId deviceId).1

/-- In every run of requests the states stay objects, and the registry can be saved. -/
theorem holdsObjects_handleAll
    (hc : c.Spec) (h : HoldsObjects s.memory.devices) (qs : List (Moment × HttpRequest)) :
  HoldsObjects (handleAll c pretty s qs).memory.devices
  := by
  induction qs generalizing s with
  | nil => apply h
  | cons q qs ih =>
      apply ih
      rcases (handled hc pretty q.1 s q.2).memory with hsame | ⟨q', hq', -, hserve⟩
      · rw [hsame]
        apply h
      · rw [hserve]
        apply h.serve hq'

/-- A registry that can be saved can be saved after a command. -/
theorem writes_of_saveable
    (hpretty : pretty.Spec) {devices : DeviceRegistry} (h : IsSaveable Device.entry devices)
    (m : Moment) (id : Bytes) :
  Writes pretty m devices id
  := by
  intro patch hpatch
  have hupdate : IsSaveable Device.entry
      (DeviceRegistry.updateState Json.mergePatch devices id patch).1 := by
    cases hd : devices.lookup id with
    | none => rwa [DeviceRegistry.updateState, hd]
    | some d =>
        have hid : Utf8.Valid id := by
          rw [← h.contents.id_of_lookup hd]
          apply (Device.wellFormed_toJson.mp (h.wellFormed_of_lookup hd)).1
        have hop : (DeviceOp.updateState id patch).WellFormed := ⟨hid, hpatch⟩
        apply DeviceOp.isSaveable_apply keepsWellFormed_mergePatch h hop
  obtain ⟨text, htext, -⟩ := hupdate.restores hpretty _ (m.devices.lists _)
  exact Option.ne_none_iff_exists'.mpr ⟨text, htext⟩

end

/-- A command over HTTP is applied if it can be, and otherwise leaves the registries, their files
and the bus, if the file can be written. After requests to an empty registry it can, and the states
are objects. -/
theorem command_applied_or_unchanged
    {c pretty : Json.Codec} (hc : c.Spec) (hpretty : pretty.Spec) :
  (∀ (m : Moment) (s : Services κ) (id raw : Bytes), s.bus.isShuttingDown = false →
      Writes pretty m s.memory.devices id →
        (Applicable c s id raw
          → Applied c pretty m s id raw (DeviceController.command c pretty m s id raw))
        ∧ (¬ Applicable c s id raw → Refused s (DeviceController.command c pretty m s id raw)))
    ∧ ∀ (s : Services κ) (qs : List (Moment × HttpRequest)), s.memory.devices = ∅ →
      HasObjectStates (handleAll c pretty s qs).memory.devices
        ∧ ∀ m id, Writes pretty m (handleAll c pretty s qs).memory.devices id
  := by
  constructor
  · intro m s id raw hactive hwrites
    apply applied_or_refused hc m raw hactive hwrites
  · intro s qs hempty
    have hobjects : HoldsObjects (handleAll c pretty s qs).memory.devices := by
      apply holdsObjects_handleAll hc
      rw [hempty]
      apply holdsObjects_empty
    use hobjects.states
    intro m id
    apply writes_of_saveable hpretty hobjects.saveable

/-- The body of a request that creates a lamp. -/
def lampBody : Json :=
  .object [(Bytes.ofAscii "name", .string (Bytes.ofAscii "Lamp")),
    (Bytes.ofAscii "type", .string (Bytes.ofAscii "light"))]

/-- A request for a lamp. -/
def createLamp : HttpRequest :=
  .deviceCreate (JsonText.print 2 0 lampBody)

theorem handle_createLamp (m : Moment) (s : Services κ) :
  handle (JsonText.codec 2) (JsonText.codec 2) m s createLamp
    = sendResult (JsonText.codec 2) (DeviceService.add (JsonText.codec 2) m s
        (Bytes.ofAscii "Lamp") (Bytes.ofAscii "light"))
  := by
  rw [createLamp, handle, DeviceController.create,
    JsonText.codec_parse_print (j := lampBody) (by decide +kernel) (by decide +kernel)]
  rfl

theorem memory_createLamp (m : Moment) (s : Services κ) :
  (handle (JsonText.codec 2) (JsonText.codec 2) m s createLamp).1.memory
    = (NexusMainframe.serve Json.mergePatch (.deviceAdd (generateId m.drawn)
        (Bytes.ofAscii "Lamp") (Bytes.ofAscii "light")) s.memory).1
  := by
  rw [handle_createLamp]
  exact memory_sendResult_of_serves (DeviceService.serves_add _ _)

/-- The services after a lamp has been created. -/
noncomputable def oneLamp : Services Unit :=
  handleAll (JsonText.codec 2) (JsonText.codec 2) Services.init [(Moment.newYear, createLamp)]

theorem lookup_oneLamp :
  oneLamp.memory.devices.lookup (generateId 0)
    = some (NexusMainframe.DeviceService.device (generateId 0) (Bytes.ofAscii "Lamp")
        (Bytes.ofAscii "light"))
  := by
  rw [oneLamp, handleAll, List.foldl_cons, List.foldl_nil, memory_createLamp]
  apply Finmap.lookup_insert

theorem active_oneLamp :
  oneLamp.bus.isShuttingDown = false
  := by
  rw [oneLamp, handleAll, List.foldl_cons, List.foldl_nil, handle_createLamp,
    services_sendResult, DeviceService.add]
  split
  next => rfl
  next =>
    dsimp only
    split
    next => rfl
    next =>
      unfold saveDevices
      split <;> rfl

/-- A command to dim the lamp. -/
def dimBody : Json :=
  .object [(Bytes.ofAscii "command", .string (Bytes.ofAscii "dim")),
    (Bytes.ofAscii "payload", .object [(Bytes.ofAscii "level", .integer 40)])]

/-- The lamp is dimmed. -/
theorem command_applied_or_unchanged_dim :
  Applied (JsonText.codec 2) (JsonText.codec 2) Moment.newYear oneLamp (generateId 0)
      (JsonText.print 2 0 dimBody)
      (DeviceController.command (JsonText.codec 2) (JsonText.codec 2) Moment.newYear oneLamp
        (generateId 0) (JsonText.print 2 0 dimBody))
    ∧ HasObjectStates oneLamp.memory.devices
  := by
  have hspec := JsonText.codec_spec 2
  obtain ⟨hcommands, hruns⟩ := command_applied_or_unchanged (κ := Unit) hspec hspec
  obtain ⟨hstates, hwrites⟩ := hruns (Services.init : Services Unit)
    [(Moment.newYear, createLamp)] rfl
  refine ⟨(hcommands _ _ _ _ active_oneLamp (hwrites _ _)).1 ?_, hstates⟩
  have hid : generateId 0 ∈ oneLamp.memory.devices := Finmap.mem_iff.mpr ⟨_, lookup_oneLamp⟩
  use valid_generateId 0, hid, dimBody, Bytes.ofAscii "dim", [(Bytes.ofAscii "level", .integer 40)]
  use JsonText.codec_parse_print (by decide +kernel) (by decide +kernel) 2, rfl
  left
  rfl

end Http

end NexusMainframe
