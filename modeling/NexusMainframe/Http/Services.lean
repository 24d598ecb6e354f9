import NexusMainframe.Event.EventBus
import NexusMainframe.Lib.JsonAccess
import NexusMainframe.Logging.LogBroadcaster
import NexusMainframe.Services.SaveLoad

/-!
# The services behind the HTTP routes

What the handlers of the device and room routes work on, and the functions of the two services
as they call them, one request at a time. A function saves the registry that it has changed and
publishes an event. Each of these can throw on a string that is not UTF-8, and what was done
before stays done.
-/

namespace NexusMainframe

open EventBus (Bus)

/-- How the table of a registry goes through its values at one moment. The order of a table depends
on how it has come about, and two tables with the same values need not have the same. -/
structure Registry.Order (ε : Type) where
  list : Registry ε → List ε
  lists : ∀ r, Lists (list r) r

/-- The other way round. -/
def Registry.Order.reverse {ε : Type} (order : Order ε) : Order ε where
  list r := (order.list r).reverse
  lists r := by
    rw [Lists, Multiset.coe_reverse]
    apply order.lists

/-- Some order. -/
noncomputable def Registry.someOrder {ε : Type} : Registry.Order ε where
  list r := (r.entries.map Sigma.snd).toList
  lists r := by
    unfold Registry.Lists
    apply Multiset.coe_toList

namespace Result

theorem proper_toJson (r : Result) :
  r.toJson.Proper
  := by
  have hkeys : (["output", "success"].map Bytes.ofAscii).Pairwise Json.KeyLt := by decide
  rw [toJson, Json.proper_object]
  simp only [List.map_cons, List.map_nil] at hkeys ⊢
  use hkeys
  simp

theorem valid_toJson {r : Result} :
  r.toJson.Valid ↔ Utf8.Valid r.message
  := by
  have houtput : Utf8.Valid (Bytes.ofAscii "output") := by decide +kernel
  have hsuccess : Utf8.Valid (Bytes.ofAscii "success") := by decide +kernel
  simp [toJson, houtput, hsuccess]

end Result

namespace Http

/-- The registries, the texts of their files, the event bus and the log. -/
structure Services (κ : Type) where
  memory : Registries
  deviceFile : Option Bytes
  roomFile : Option Bytes
  bus : Bus κ EventData
  log : LogBroadcaster

/-- What a request meets: the time, the number that is drawn for a new id, and the orders of the
tables, which are those of the run that the request belongs to. -/
structure Moment where
  now : LogTime
  drawn : UInt64
  devices : Registry.Order Device
  rooms : Registry.Order Room

/-- A response: its status and its body. -/
structure Response where
  status : Nat
  body : Bytes
deriving DecidableEq

variable {κ : Type}

/-- No device and no room, no files, and a new bus and log. -/
def Services.init : Services κ where
  memory := ⟨∅, ∅⟩
  deviceFile := none
  roomFile := none
  bus := .init
  log := ⟨[], by decide⟩

/-- A request at the start of a year. -/
noncomputable def Moment.newYear : Moment where
  now := ⟨2026, 1, 1, 0, 0, 0, 0⟩
  drawn := 0
  devices := Registry.someOrder
  rooms := Registry.someOrder

/-- The same with another number. -/
def Moment.drawing (m : Moment) (drawn : UInt64) : Moment :=
  { m with drawn }

/-- The same in tables that are gone through the other way round. -/
def Moment.reverse (m : Moment) : Moment :=
  { m with devices := m.devices.reverse, rooms := m.rooms.reverse }

/-- The number in hexadecimal, with 16 digits. -/
def generateId (drawn : UInt64) : Bytes :=
  (List.range 16).map fun i => Json.hexDigit (drawn.toNat / 16 ^ (15 - i) % 16)

/-- The id of a room is made like that of a device. -/
def generateRoomId (drawn : UInt64) : Bytes :=
  generateId drawn

/-- A result is sent with its status, unless its message cannot be serialised. -/
def send (c : Json.Codec) (s : Services κ) (result : Result) : Services κ × Option Response :=
  (s, (c.dump result.toJson).map fun body => ⟨result.httpStatus, body⟩)

/-- A value is sent with the status 200, unless it cannot be serialised. -/
def sendJson (c : Json.Codec) (s : Services κ) (j : Json) : Services κ × Option Response :=
  (s, (c.dump j).map fun body => ⟨200, body⟩)

/-- The result of a service function is sent, unless the function has thrown. -/
def sendResult (c : Json.Codec) : Services κ × Option Result → Services κ × Option Response
  | (s, some result) => send c s result
  | (s, none) => (s, none)

/-- `DeviceRegistry::save`, and what comes behind it: the file is opened, and emptied, before the
text is made. -/
def saveDevices (pretty : Json.Codec) (m : Moment) (s : Services κ)
    (next : Services κ → Services κ × Option Result) : Services κ × Option Result :=
  match DeviceRegistry.save pretty.dump (m.devices.list s.memory.devices) with
  | some text => next { s with deviceFile := some text }
  | none => ({ s with deviceFile := some [] }, none)

/-- `RoomRegistry::save`, and what comes behind it. -/
def saveRooms (pretty : Json.Codec) (m : Moment) (s : Services κ)
    (next : Services κ → Services κ × Option Result) : Services κ × Option Result :=
  match RoomRegistry.save pretty.dump (m.rooms.list s.memory.rooms) with
  | some text => next { s with roomFile := some text }
  | none => ({ s with roomFile := some [] }, none)

namespace Services

/-- The services with other devices. -/
def setDevices (s : Services κ) (devices : DeviceRegistry) : Services κ :=
  { s with memory := { s.memory with devices := devices } }

/-- The services with other rooms. -/
def setRooms (s : Services κ) (rooms : RoomRegistry) : Services κ :=
  { s with memory := { s.memory with rooms := rooms } }

/-- The services after an event was published. -/
def publish (s : Services κ) (event : Event EventData) : Services κ :=
  { s with bus := s.bus.publish event }

end Services

/-! ### The device service -/

namespace DeviceService

/-- The event of a command: the device and the payload. -/
def commandEvent (id : Bytes) (payload : Json) : Json :=
  .object [(Bytes.ofAscii "id", .string id), (Bytes.ofAscii "payload", payload)]

/-- `add` draws the id, and publishes it once the device is saved. -/
def add (pretty : Json.Codec) (m : Moment) (s : Services κ) (name type : Bytes) :
    Services κ × Option Result :=
  if name.isEmpty || type.isEmpty then (s, some NexusMainframe.DeviceService.required)
  else
    let d := NexusMainframe.DeviceService.device (generateId m.drawn) name type
    match DeviceRegistry.add s.memory.devices d with
    | (_, false) => (s, some NexusMainframe.DeviceService.conflict)
    | (devices, true) =>
        saveDevices pretty m (s.setDevices devices) fun s =>
          (s.publish ⟨Bytes.ofAscii "device.registered", .string d.id⟩,
            some (NexusMainframe.DeviceService.registered d.id))

/-- `remove` publishes the id once the registry is saved. -/
def remove (pretty : Json.Codec) (m : Moment) (s : Services κ) (id : Bytes) :
    Services κ × Option Result :=
  if !DeviceRegistry.exists' s.memory.devices id then
    (s, some (NexusMainframe.DeviceService.notFound id))
  else
    saveDevices pretty m (s.setDevices (DeviceRegistry.remove s.memory.devices id).1) fun s =>
      (s.publish ⟨Bytes.ofAscii "device.removed", .string id⟩,
        some (NexusMainframe.DeviceService.removed id))

/-- `command` merges the payload into the state, saves, and publishes it with the id. -/
def command (c pretty : Json.Codec) (m : Moment) (s : Services κ) (id : Bytes) (payload : Json) :
    Services κ × Option Result :=
  if !DeviceRegistry.exists' s.memory.devices id then
    (s, some (NexusMainframe.DeviceService.notFound id))
  else
    let devices := (DeviceRegistry.updateState Json.mergePatch s.memory.devices id payload).1
    saveDevices pretty m (s.setDevices devices) fun s =>
      match c.dump (commandEvent id payload) with
      | none => (s, none)
      | some text =>
          (s.publish ⟨Bytes.ofAscii "device.command", .string text⟩,
            some (NexusMainframe.DeviceService.applied id))

end DeviceService

/-! ### The room service -/

namespace RoomService

/-- `add` draws the id. -/
def add (pretty : Json.Codec) (m : Moment) (s : Services κ) (name : Bytes) :
    Services κ × Option Result :=
  if name.isEmpty then (s, some NexusMainframe.RoomService.required)
  else
    let r := NexusMainframe.RoomService.room (generateRoomId m.drawn) name
    match RoomRegistry.add s.memory.rooms r with
    | (_, false) => (s, some NexusMainframe.RoomService.conflict)
    | (rooms, true) =>
        saveRooms pretty m (s.setRooms rooms) fun s =>
          (s, some (NexusMainframe.RoomService.created r.id))

/-- `remove`; the devices in the room stay registered. -/
def remove (pretty : Json.Codec) (m : Moment) (s : Services κ) (id : Bytes) :
    Services κ × Option Result :=
  if !RoomRegistry.exists' s.memory.rooms id then
    (s, some (NexusMainframe.RoomService.notFound id))
  else
    saveRooms pretty m (s.setRooms (RoomRegistry.remove s.memory.rooms id).1) fun s =>
      (s, some (NexusMainframe.RoomService.removed id))

/-- `addDevice`: the room is looked for before the device. -/
def addDevice (pretty : Json.Codec) (m : Moment) (s : Services κ) (roomId deviceId : Bytes) :
    Services κ × Option Result :=
  if !RoomRegistry.exists' s.memory.rooms roomId then
    (s, some (NexusMainframe.RoomService.notFound roomId))
  else if !DeviceRegistry.exists' s.memory.devices deviceId then
    (s, some (NexusMainframe.DeviceService.notFound deviceId))
  else
    match RoomRegistry.addDevice s.memory.rooms roomId deviceId with
    | (_, false) => (s, some NexusMainframe.RoomService.deviceAlready)
    | (rooms, true) =>
        saveRooms pretty m (s.setRooms rooms) fun s =>
          (s, some NexusMainframe.RoomService.deviceAdded)

/-- `removeDevice`; the device may be gone from its registry. -/
def removeDevice (pretty : Json.Codec) (m : Moment) (s : Services κ) (roomId deviceId : Bytes) :
    Services κ × Option Result :=
  if !RoomRegistry.exists' s.memory.rooms roomId then
    (s, some (NexusMainframe.RoomService.notFound roomId))
  else
    match RoomRegistry.removeDevice s.memory.rooms roomId deviceId with
    | (_, false) => (s, some NexusMainframe.RoomService.deviceNotIn)
    | (rooms, true) =>
        saveRooms pretty m (s.setRooms rooms) fun s =>
          (s, some NexusMainframe.RoomService.deviceRemoved)

/-- The value of a room with those of its devices that are registered. -/
def expand (s : Services κ) (room : Room) : Json :=
  .object <| Json.setMember (Bytes.ofAscii "devices")
    (.array (room.deviceIds.filterMap fun did =>
      (Registry.get s.memory.devices did).map Device.toJson))
    room.toJson.members

end RoomService

/-! ### What the requests come to -/

/-- A service function leaves the registries as its request does that is served in one piece, and
has its result unless it throws. -/
def Serves (q : Request) (s : Services κ) (out : Services κ × Option Result) : Prop :=
  out.1.memory = (serve Json.mergePatch q s.memory).1
    ∧ ∀ result ∈ out.2, result = (serve Json.mergePatch q s.memory).2

section

variable {c pretty : Json.Codec} {m : Moment} {q : Request} {s t : Services κ}
  {next : Services κ → Services κ × Option Result}

/-- What the service function does is known, and it throws nothing. -/
theorem serves_of_eq {r : Registries} {result : Result}
    (hserve : serve Json.mergePatch q s.memory = (r, result)) (hmemory : t.memory = r) :
  Serves q s (t, some result)
  := by
  rw [Serves, hserve]
  use hmemory
  intro result' h
  cases h
  rfl

/-- The registries have been changed, and the devices are saved. -/
theorem serves_saveDevices
    (hmemory : t.memory = (serve Json.mergePatch q s.memory).1)
    (hnext : ∀ u, (next u).1.memory = u.memory
      ∧ ∀ result ∈ (next u).2, result = (serve Json.mergePatch q s.memory).2) :
  Serves q s (saveDevices pretty m t next)
  := by
  unfold saveDevices
  split
  next text _ =>
    obtain ⟨hkept, hresult⟩ := hnext { t with deviceFile := some text }
    exact ⟨hkept.trans hmemory, hresult⟩
  next =>
    use hmemory
    intro result h
    cases h

/-- The registries have been changed, and the rooms are saved. -/
theorem serves_saveRooms {result : Result}
    (hmemory : t.memory = (serve Json.mergePatch q s.memory).1)
    (hresult : result = (serve Json.mergePatch q s.memory).2) :
  Serves q s (saveRooms pretty m t fun u => (u, some result))
  := by
  unfold saveRooms
  split
  next =>
    use hmemory
    intro result' h
    cases h
    apply hresult
  next =>
    use hmemory
    intro result' h
    cases h

theorem DeviceService.serves_add (name type : Bytes) :
  Serves (.deviceAdd (generateId m.drawn) name type) s (add pretty m s name type)
  := by
  unfold add
  split
  next h => exact serves_of_eq (by simp [serve, h]) rfl
  next h =>
    cases hid : s.memory.devices.lookup (generateId m.drawn) with
    | some d =>
        have hadd : DeviceRegistry.add s.memory.devices
            (NexusMainframe.DeviceService.device (generateId m.drawn) name type) = (_, false) :=
          Registry.add_of_lookup_some hid
        simp only [hadd]
        exact serves_of_eq (by simp [serve, h, hid]) rfl
    | none =>
        have hadd : DeviceRegistry.add s.memory.devices
            (NexusMainframe.DeviceService.device (generateId m.drawn) name type) = (_, true) :=
          Registry.add_of_lookup_none hid
        simp only [hadd]
        apply serves_saveDevices
        · simp only [serve, h, hid]
          rfl
        · intro u
          use rfl
          simp only [serve, h, hid]
          intro result hresult
          cases hresult
          rfl

theorem DeviceService.serves_remove (id : Bytes) :
  Serves (.deviceRemove id) s (remove pretty m s id)
  := by
  unfold remove
  rw [DeviceRegistry.exists', Registry.exists'_eq]
  cases hid : s.memory.devices.lookup id with
  | none => exact serves_of_eq (by simp [serve, hid]) rfl
  | some d =>
      rw [if_neg (by simp)]
      apply serves_saveDevices
      · simp only [serve, hid, DeviceRegistry.remove, Registry.remove_of_lookup_some hid]
        rfl
      · intro u
        use rfl
        simp only [serve, hid]
        intro result hresult
        cases hresult
        rfl

theorem DeviceService.serves_command (id : Bytes) (payload : Json) :
  Serves (.deviceCommand id payload) s (command c pretty m s id payload)
  := by
  unfold command
  rw [DeviceRegistry.exists', Registry.exists'_eq]
  cases hid : s.memory.devices.lookup id with
  | none => exact serves_of_eq (by simp [serve, hid]) rfl
  | some d =>
      rw [if_neg (by simp)]
      apply serves_saveDevices
      · simp only [serve, hid, DeviceRegistry.updateState]
        rfl
      · intro u
        simp only [serve, hid]
        split
        next =>
          use rfl
          intro result hresult
          cases hresult
        next =>
          use rfl
          intro result hresult
          cases hresult
          rfl

theorem RoomService.serves_add (name : Bytes) :
  Serves (.roomAdd (generateRoomId m.drawn) name) s (add pretty m s name)
  := by
  unfold add
  split
  next h => exact serves_of_eq (by simp [serve, h]) rfl
  next h =>
    cases hid : s.memory.rooms.lookup (generateRoomId m.drawn) with
    | some r =>
        have hadd : RoomRegistry.add s.memory.rooms
            (NexusMainframe.RoomService.room (generateRoomId m.drawn) name) = (_, false) :=
          Registry.add_of_lookup_some hid
        simp only [hadd]
        exact serves_of_eq (by simp [serve, h, hid]) rfl
    | none =>
        have hadd : RoomRegistry.add s.memory.rooms
            (NexusMainframe.RoomService.room (generateRoomId m.drawn) name) = (_, true) :=
          Registry.add_of_lookup_none hid
        simp only [hadd]
        apply serves_saveRooms <;>
          simp only [serve, h, hid] <;>
          rfl

theorem RoomService.serves_remove (id : Bytes) :
  Serves (.roomRemove id) s (remove pretty m s id)
  := by
  unfold remove
  rw [RoomRegistry.exists', Registry.exists'_eq]
  cases hid : s.memory.rooms.lookup id with
  | none => exact serves_of_eq (by simp [serve, hid]) rfl
  | some r =>
      rw [if_neg (by simp)]
      apply serves_saveRooms
      · simp only [serve, hid, RoomRegistry.remove, Registry.remove_of_lookup_some hid]
        rfl
      · simp only [serve, hid]

theorem RoomService.serves_addDevice (roomId deviceId : Bytes) :
  Serves (.roomAddDevice roomId deviceId) s (addDevice pretty m s roomId deviceId)
  := by
  unfold addDevice
  rw [RoomRegistry.exists', Registry.exists'_eq, DeviceRegistry.exists', Registry.exists'_eq]
  cases hroom : s.memory.rooms.lookup roomId with
  | none => exact serves_of_eq (by simp [serve, hroom]) rfl
  | some room =>
      cases hdevice : s.memory.devices.lookup deviceId with
      | none => exact serves_of_eq (by simp [serve, hroom, hdevice]) rfl
      | some d =>
          by_cases hmem : deviceId ∈ room.deviceIds
          · simp only [RoomRegistry.addDevice, hroom, hmem]
            exact serves_of_eq (by simp [serve, hroom, hdevice, hmem]) rfl
          · simp only [RoomRegistry.addDevice, hroom, hmem]
            apply serves_saveRooms <;>
              simp only [serve, hroom, hdevice, hmem] <;>
              rfl

theorem RoomService.serves_removeDevice (roomId deviceId : Bytes) :
  Serves (.roomRemoveDevice roomId deviceId) s (removeDevice pretty m s roomId deviceId)
  := by
  unfold removeDevice
  rw [RoomRegistry.exists', Registry.exists'_eq]
  cases hroom : s.memory.rooms.lookup roomId with
  | none => exact serves_of_eq (by simp [serve, hroom]) rfl
  | some room =>
      by_cases hmem : deviceId ∈ room.deviceIds
      · simp only [RoomRegistry.removeDevice, hroom, hmem]
        apply serves_saveRooms <;>
          simp only [serve, hroom, hmem] <;>
          rfl
      · simp only [RoomRegistry.removeDevice, hroom, hmem]
        exact serves_of_eq (by simp [serve, hroom, hmem]) rfl

end

end Http

end NexusMainframe
