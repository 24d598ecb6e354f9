import NexusMainframe.Devices.DeviceRegistry
import NexusMainframe.Lib.Interleaving
import NexusMainframe.Result.Result
import NexusMainframe.Rooms.RoomRegistry

/-!
# Requests to the device and room services

The services keep a registry each. What a service function does is a program of operations
of the registries, each of them under the registry's mutex; functions of several requests are
interleaved. `serve` is what a request comes to when it is served in one piece.

The file of a registry is given by the registry that it has the text of.
-/

namespace NexusMainframe

open Interleaving (Prog exec)

/-- The registries of the two services. -/
structure Registries where
  devices : DeviceRegistry
  rooms : RoomRegistry

/-- The registries in memory and in their files. -/
structure Store where
  memory : Registries
  files : Registries

/-- The operations of the device registry. -/
inductive DeviceOp
  | add (device : Device)
  | exists' (id : Bytes)
  | remove (id : Bytes)
  | updateState (id : Bytes) (patch : Json)

/-- The operations of the room registry. -/
inductive RoomOp
  | add (room : Room)
  | exists' (id : Bytes)
  | remove (id : Bytes)
  | addDevice (roomId deviceId : Bytes)
  | removeDevice (roomId deviceId : Bytes)

/-- An operation under a mutex. -/
inductive Op
  | devices (op : DeviceOp)
  | saveDevices
  | rooms (op : RoomOp)
  | saveRooms

/-- What an operation makes of the registry, and its answer. -/
def DeviceOp.apply (merge : Json → Json → Json) (r : DeviceRegistry) :
    DeviceOp → DeviceRegistry × Bool
  | .add device => DeviceRegistry.add r device
  | .exists' id => (r, DeviceRegistry.exists' r id)
  | .remove id => DeviceRegistry.remove r id
  | .updateState id patch => DeviceRegistry.updateState merge r id patch

/-- What an operation makes of the registry, and its answer. -/
def RoomOp.apply (r : RoomRegistry) : RoomOp → RoomRegistry × Bool
  | .add room => RoomRegistry.add r room
  | .exists' id => (r, RoomRegistry.exists' r id)
  | .remove id => RoomRegistry.remove r id
  | .addDevice roomId deviceId => RoomRegistry.addDevice r roomId deviceId
  | .removeDevice roomId deviceId => RoomRegistry.removeDevice r roomId deviceId

/-- What an operation makes of the registries and their files; a save answers yes. -/
def Op.apply (merge : Json → Json → Json) : Op → Store → Store × Bool
  | .devices op, s =>
      ({ s with memory := { s.memory with devices := (op.apply merge s.memory.devices).1 } },
        (op.apply merge s.memory.devices).2)
  | .saveDevices, s =>
      ({ s with files := { s.files with devices := s.memory.devices } }, true)
  | .rooms op, s =>
      ({ s with memory := { s.memory with rooms := (op.apply s.memory.rooms).1 } },
        (op.apply s.memory.rooms).2)
  | .saveRooms, s =>
      ({ s with files := { s.files with rooms := s.memory.rooms } }, true)

/-! ### Operations by what they find -/

@[simp]
theorem DeviceOp.apply_add (merge : Json → Json → Json) (r : DeviceRegistry) (d : Device) :
  DeviceOp.apply merge r (.add d)
    = match Finmap.lookup d.id r with
      | none => (Finmap.insert d.id d r, true)
      | some _ => (r, false)
  := by
  cases h : Finmap.lookup d.id r with
  | none => exact Registry.add_of_lookup_none h
  | some d' => exact Registry.add_of_lookup_some h

@[simp]
theorem DeviceOp.apply_exists' (merge : Json → Json → Json) (r : DeviceRegistry) (id : Bytes) :
  DeviceOp.apply merge r (.exists' id) = (r, (Finmap.lookup id r).isSome)
  := by
  rw [apply, DeviceRegistry.exists', Registry.exists'_eq]

@[simp]
theorem DeviceOp.apply_remove (merge : Json → Json → Json) (r : DeviceRegistry) (id : Bytes) :
  DeviceOp.apply merge r (.remove id)
    = match Finmap.lookup id r with
      | none => (r, false)
      | some _ => (Finmap.erase id r, true)
  := by
  cases h : Finmap.lookup id r with
  | none => exact Registry.remove_of_lookup_none h
  | some d => exact Registry.remove_of_lookup_some h

@[simp]
theorem DeviceOp.apply_updateState
    (merge : Json → Json → Json) (r : DeviceRegistry) (id : Bytes) (patch : Json) :
  DeviceOp.apply merge r (.updateState id patch)
    = match Finmap.lookup id r with
      | none => (r, false)
      | some d => (Finmap.insert id { d with state := merge d.state patch } r, true)
  := rfl

@[simp]
theorem RoomOp.apply_add (r : RoomRegistry) (room : Room) :
  RoomOp.apply r (.add room)
    = match Finmap.lookup room.id r with
      | none => (Finmap.insert room.id room r, true)
      | some _ => (r, false)
  := by
  cases h : Finmap.lookup room.id r with
  | none => exact Registry.add_of_lookup_none h
  | some room' => exact Registry.add_of_lookup_some h

@[simp]
theorem RoomOp.apply_exists' (r : RoomRegistry) (id : Bytes) :
  RoomOp.apply r (.exists' id) = (r, (Finmap.lookup id r).isSome)
  := by
  rw [apply, RoomRegistry.exists', Registry.exists'_eq]

@[simp]
theorem RoomOp.apply_remove (r : RoomRegistry) (id : Bytes) :
  RoomOp.apply r (.remove id)
    = match Finmap.lookup id r with
      | none => (r, false)
      | some _ => (Finmap.erase id r, true)
  := by
  cases h : Finmap.lookup id r with
  | none => exact Registry.remove_of_lookup_none h
  | some room => exact Registry.remove_of_lookup_some h

@[simp]
theorem RoomOp.apply_addDevice (r : RoomRegistry) (roomId deviceId : Bytes) :
  RoomOp.apply r (.addDevice roomId deviceId)
    = match Finmap.lookup roomId r with
      | none => (r, false)
      | some room =>
          if deviceId ∈ room.deviceIds then (r, false)
          else
            (Finmap.insert roomId { room with deviceIds := room.deviceIds ++ [deviceId] } r, true)
  := rfl

@[simp]
theorem RoomOp.apply_removeDevice (r : RoomRegistry) (roomId deviceId : Bytes) :
  RoomOp.apply r (.removeDevice roomId deviceId)
    = match Finmap.lookup roomId r with
      | none => (r, false)
      | some room =>
          if deviceId ∈ room.deviceIds then
            (Finmap.insert roomId { room with deviceIds := room.deviceIds.erase deviceId } r, true)
          else (r, false)
  := rfl

theorem DeviceOp.apply_of_false
    {merge : Json → Json → Json} {r : DeviceRegistry} {op : DeviceOp}
    (h : (op.apply merge r).2 = false) :
  (op.apply merge r).1 = r
  := by
  cases op with
  | add d =>
      rw [apply_add] at h ⊢
      cases hd : Finmap.lookup d.id r with
      | none =>
          rw [hd] at h
          cases h
      | some _ => rfl
  | exists' id => rw [apply_exists']
  | remove id =>
      rw [apply_remove] at h ⊢
      cases hd : Finmap.lookup id r with
      | none => rfl
      | some _ =>
          rw [hd] at h
          cases h
  | updateState id patch =>
      rw [apply_updateState] at h ⊢
      cases hd : Finmap.lookup id r with
      | none => rfl
      | some _ =>
          rw [hd] at h
          cases h

theorem RoomOp.apply_of_false
    {r : RoomRegistry} {op : RoomOp} (h : (op.apply r).2 = false) :
  (op.apply r).1 = r
  := by
  cases op with
  | add room =>
      rw [apply_add] at h ⊢
      cases hroom : Finmap.lookup room.id r with
      | none =>
          rw [hroom] at h
          cases h
      | some _ => rfl
  | exists' id => rw [apply_exists']
  | remove id =>
      rw [apply_remove] at h ⊢
      cases hroom : Finmap.lookup id r with
      | none => rfl
      | some _ =>
          rw [hroom] at h
          cases h
  | addDevice roomId deviceId =>
      rw [apply_addDevice] at h ⊢
      cases hroom : Finmap.lookup roomId r with
      | none => rfl
      | some room =>
          by_cases hmem : deviceId ∈ room.deviceIds
          · simp [hmem]
          · simp [hroom, hmem] at h
  | removeDevice roomId deviceId =>
      rw [apply_removeDevice] at h ⊢
      cases hroom : Finmap.lookup roomId r with
      | none => rfl
      | some room =>
          by_cases hmem : deviceId ∈ room.deviceIds
          · simp [hroom, hmem] at h
          · simp [hmem]

/-- An operation that answers no has changed nothing. -/
theorem Op.memory_of_false
    {merge : Json → Json → Json} {op : Op} {s : Store} (h : (op.apply merge s).2 = false) :
  (op.apply merge s).1.memory = s.memory
  := by
  cases op with
  | devices op => rw [apply, DeviceOp.apply_of_false h]
  | rooms op => rw [apply, RoomOp.apply_of_false h]
  | saveDevices => rfl
  | saveRooms => rfl

/-! ### The service functions -/

namespace DeviceService

/-- The result for a device that is not there. -/
def notFound (id : Bytes) : Result :=
  .notFound (Bytes.ofAscii "Device '" ++ id ++ Bytes.ofAscii "' not found")

/-- The result for a device without a name or a type. -/
def required : Result :=
  .badRequest (Bytes.ofAscii "Fields 'name' and 'type' are required")

/-- The result for an id that is taken. -/
def conflict : Result :=
  .conflict (Bytes.ofAscii "Device with this id already exists")

/-- The result of `add`. -/
def registered (id : Bytes) : Result :=
  .created (Bytes.ofAscii "Device '" ++ id ++ Bytes.ofAscii "' registered")

/-- The result of `remove`. -/
def removed (id : Bytes) : Result :=
  .ok (Bytes.ofAscii "Device '" ++ id ++ Bytes.ofAscii "' removed")

/-- The result of `command`. -/
def applied (id : Bytes) : Result :=
  .ok (Bytes.ofAscii "Command applied to device '" ++ id ++ Bytes.ofAscii "'")

/-- The device that `add` registers under a generated id. -/
def device (id name type : Bytes) : Device where
  id := id
  name := name
  type := type
  state := .object []
  online := false

/-- `add`. -/
def add (id name type : Bytes) : Prog Op Bool Result :=
  if name.isEmpty || type.isEmpty then .done required
  else
    .call (.devices (.add (device id name type))) fun added =>
      if !added then .done conflict
      else .call .saveDevices fun _ => .done (registered id)

/-- `remove`: the device is looked up and removed in two calls. -/
def remove (id : Bytes) : Prog Op Bool Result :=
  .call (.devices (.exists' id)) fun found =>
    if !found then .done (notFound id)
    else
      .call (.devices (.remove id)) fun _ =>
        .call .saveDevices fun _ => .done (removed id)

/-- `command`: the device is looked up and changed in two calls. -/
def command (id : Bytes) (payload : Json) : Prog Op Bool Result :=
  .call (.devices (.exists' id)) fun found =>
    if !found then .done (notFound id)
    else
      .call (.devices (.updateState id payload)) fun _ =>
        .call .saveDevices fun _ => .done (applied id)

end DeviceService

namespace RoomService

/-- The result for a room that is not there. -/
def notFound (id : Bytes) : Result :=
  .notFound (Bytes.ofAscii "Room '" ++ id ++ Bytes.ofAscii "' not found")

/-- The result for a room without a name. -/
def required : Result :=
  .badRequest (Bytes.ofAscii "Field 'name' is required")

/-- The result for an id that is taken. -/
def conflict : Result :=
  .conflict (Bytes.ofAscii "Room with this id already exists")

/-- The result of `add`. -/
def created (id : Bytes) : Result :=
  .created (Bytes.ofAscii "Room '" ++ id ++ Bytes.ofAscii "' created")

/-- The result of `remove`. -/
def removed (id : Bytes) : Result :=
  .ok (Bytes.ofAscii "Room '" ++ id ++ Bytes.ofAscii "' removed")

/-- The result for a device that is in the room. -/
def deviceAlready : Result :=
  .conflict (Bytes.ofAscii "Device already in this room")

/-- The result of `addDevice`. -/
def deviceAdded : Result :=
  .ok (Bytes.ofAscii "Device added to room")

/-- The result for a device that is not in the room. -/
def deviceNotIn : Result :=
  .notFound (Bytes.ofAscii "Device not in this room")

/-- The result of `removeDevice`. -/
def deviceRemoved : Result :=
  .ok (Bytes.ofAscii "Device removed from room")

/-- The room that `add` creates under a generated id. -/
def room (id name : Bytes) : Room where
  id := id
  name := name
  deviceIds := []

/-- `add`. -/
def add (id name : Bytes) : Prog Op Bool Result :=
  if name.isEmpty then .done required
  else
    .call (.rooms (.add (room id name))) fun added =>
      if !added then .done conflict
      else .call .saveRooms fun _ => .done (created id)

/-- `remove`: the room is looked up and removed in two calls. -/
def remove (id : Bytes) : Prog Op Bool Result :=
  .call (.rooms (.exists' id)) fun found =>
    if !found then .done (notFound id)
    else
      .call (.rooms (.remove id)) fun _ =>
        .call .saveRooms fun _ => .done (removed id)

/-- `addDevice`: the room and the device are looked up before the room is changed. -/
def addDevice (roomId deviceId : Bytes) : Prog Op Bool Result :=
  .call (.rooms (.exists' roomId)) fun found =>
    if !found then .done (notFound roomId)
    else
      .call (.devices (.exists' deviceId)) fun found =>
        if !found then .done (DeviceService.notFound deviceId)
        else
          .call (.rooms (.addDevice roomId deviceId)) fun added =>
            if !added then .done deviceAlready
            else .call .saveRooms fun _ => .done deviceAdded

/-- `removeDevice`: the device is not looked up. -/
def removeDevice (roomId deviceId : Bytes) : Prog Op Bool Result :=
  .call (.rooms (.exists' roomId)) fun found =>
    if !found then .done (notFound roomId)
    else
      .call (.rooms (.removeDevice roomId deviceId)) fun removed =>
        if !removed then .done deviceNotIn
        else .call .saveRooms fun _ => .done deviceRemoved

end RoomService

/-- A call of a service function. A call that adds comes with the id that is generated. -/
inductive Request
  | deviceAdd (id name type : Bytes)
  | deviceRemove (id : Bytes)
  | deviceCommand (id : Bytes) (payload : Json)
  | roomAdd (id name : Bytes)
  | roomRemove (id : Bytes)
  | roomAddDevice (roomId deviceId : Bytes)
  | roomRemoveDevice (roomId deviceId : Bytes)

/-- The function that is called. -/
def Request.program : Request → Prog Op Bool Result
  | .deviceAdd id name type => DeviceService.add id name type
  | .deviceRemove id => DeviceService.remove id
  | .deviceCommand id payload => DeviceService.command id payload
  | .roomAdd id name => RoomService.add id name
  | .roomRemove id => RoomService.remove id
  | .roomAddDevice roomId deviceId => RoomService.addDevice roomId deviceId
  | .roomRemoveDevice roomId deviceId => RoomService.removeDevice roomId deviceId

/-! ### Requests in one piece -/

/-- What a request does to the registries when nothing comes in between, and its result. -/
def serve (merge : Json → Json → Json) : Request → Registries → Registries × Result
  | .deviceAdd id name type, s =>
      if name.isEmpty || type.isEmpty then (s, DeviceService.required)
      else
        match s.devices.lookup id with
        | some _ => (s, DeviceService.conflict)
        | none =>
            ({ s with devices := s.devices.insert id (DeviceService.device id name type) },
              DeviceService.registered id)
  | .deviceRemove id, s =>
      match s.devices.lookup id with
      | none => (s, DeviceService.notFound id)
      | some _ => ({ s with devices := s.devices.erase id }, DeviceService.removed id)
  | .deviceCommand id payload, s =>
      match s.devices.lookup id with
      | none => (s, DeviceService.notFound id)
      | some d =>
          ({ s with
              devices := s.devices.insert id { d with state := merge d.state payload } },
            DeviceService.applied id)
  | .roomAdd id name, s =>
      if name.isEmpty then (s, RoomService.required)
      else
        match s.rooms.lookup id with
        | some _ => (s, RoomService.conflict)
        | none =>
            ({ s with rooms := s.rooms.insert id (RoomService.room id name) },
              RoomService.created id)
  | .roomRemove id, s =>
      match s.rooms.lookup id with
      | none => (s, RoomService.notFound id)
      | some _ => ({ s with rooms := s.rooms.erase id }, RoomService.removed id)
  | .roomAddDevice roomId deviceId, s =>
      match s.rooms.lookup roomId, s.devices.lookup deviceId with
      | none, _ => (s, RoomService.notFound roomId)
      | some _, none => (s, DeviceService.notFound deviceId)
      | some room, some _ =>
          if deviceId ∈ room.deviceIds then (s, RoomService.deviceAlready)
          else
            ({ s with
                rooms := s.rooms.insert roomId
                  { room with deviceIds := room.deviceIds ++ [deviceId] } },
              RoomService.deviceAdded)
  | .roomRemoveDevice roomId deviceId, s =>
      match s.rooms.lookup roomId with
      | none => (s, RoomService.notFound roomId)
      | some room =>
          if deviceId ∈ room.deviceIds then
            ({ s with
                rooms := s.rooms.insert roomId
                  { room with deviceIds := room.deviceIds.erase deviceId } },
              RoomService.deviceRemoved)
          else (s, RoomService.deviceNotIn)

/-- A program that runs alone does what its request comes to. -/
theorem exec_program (merge : Json → Json → Json) (q : Request) (s : Store) :
  (exec (Op.apply merge) q.program s).1.memory = (serve merge q s.memory).1
    ∧ (exec (Op.apply merge) q.program s).2 = (serve merge q s.memory).2
  := by
  cases q with
  | deviceAdd id name type =>
      simp only [Request.program, DeviceService.add, serve]
      split
      next => exact ⟨rfl, rfl⟩
      next =>
        cases h : s.memory.devices.lookup id <;>
          simp [exec, Op.apply, DeviceService.device, h]
  | deviceRemove id =>
      cases h : s.memory.devices.lookup id <;>
        simp [Request.program, DeviceService.remove, serve, exec, Op.apply, h]
  | deviceCommand id payload =>
      cases h : s.memory.devices.lookup id <;>
        simp [Request.program, DeviceService.command, serve, exec, Op.apply, h]
  | roomAdd id name =>
      simp only [Request.program, RoomService.add, serve]
      split
      next => exact ⟨rfl, rfl⟩
      next =>
        cases h : s.memory.rooms.lookup id <;> simp [exec, Op.apply, RoomService.room, h]
  | roomRemove id =>
      cases h : s.memory.rooms.lookup id <;>
        simp [Request.program, RoomService.remove, serve, exec, Op.apply, h]
  | roomAddDevice roomId deviceId =>
      cases hroom : s.memory.rooms.lookup roomId with
      | none => simp [Request.program, RoomService.addDevice, serve, exec, Op.apply, hroom]
      | some room =>
          cases hdevice : s.memory.devices.lookup deviceId <;>
            by_cases hmem : deviceId ∈ room.deviceIds <;>
            simp [Request.program, RoomService.addDevice, serve, exec, Op.apply, hroom, hdevice,
              hmem]
  | roomRemoveDevice roomId deviceId =>
      cases hroom : s.memory.rooms.lookup roomId with
      | none => simp [Request.program, RoomService.removeDevice, serve, exec, Op.apply, hroom]
      | some room =>
          by_cases hmem : deviceId ∈ room.deviceIds <;>
            simp [Request.program, RoomService.removeDevice, serve, exec, Op.apply, hroom, hmem]

end NexusMainframe
