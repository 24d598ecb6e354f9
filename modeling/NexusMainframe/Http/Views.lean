import NexusMainframe.Http.Restart

/-!
# What the reading requests show

A request that reads changes nothing. Its response decodes to what is in the registries: the index
to all devices or rooms, each once, and a room to itself with those of its devices that are
registered.
-/

namespace NexusMainframe

open Registry (IsSaveable)
open Hidden (Act System)

namespace Http

variable {κ : Type}

/-- Nothing has changed, and the response has the status 200 and a body that decodes to the
value. -/
def Shows (c : Json.Codec) (s : Services κ) (j : Json) (out : Services κ × Option Response) :
    Prop :=
  out.1 = s ∧ ∃ body, out.2 = some ⟨200, body⟩ ∧ c.parse body = some j

/-- The values are those of a registry, each once. -/
def ListsOnce {ε : Type} (entry : RegistryEntry ε) (r : Registry ε) (es : List ε) : Prop :=
  (es.map entry.id).Nodup ∧ ∀ e, e ∈ es ↔ r.lookup (entry.id e) = some e

/-- The value of a room has the members of the room, and as another one the values of those of its
devices that are registered, in the order in which they were put there and each once. -/
def ShowsRoom (devices : DeviceRegistry) (room : Room) (j : Json) : Prop :=
  ∃ ds : List Device,
    j.member (Bytes.ofAscii "devices") = some (.array (ds.map Device.toJson))
      ∧ (∀ key ≠ Bytes.ofAscii "devices", j.member key = room.toJson.member key)
      ∧ ds.map Device.id = room.deviceIds.filter (fun id => id ∈ devices)
      ∧ (ds.map Device.id).Nodup
      ∧ ∀ d ∈ ds, devices.lookup d.id = some d

/-- No room has a device twice. -/
def NodupRooms (rooms : RoomRegistry) : Prop :=
  ∀ id room, rooms.lookup id = some room → room.deviceIds.Nodup

section

variable {c pretty : Json.Codec} {m : Moment} {s : Services κ} {r : Registries} {q : Request}

theorem NodupRooms.insert
    {rooms : RoomRegistry} (h : NodupRooms rooms) (id : Bytes) {room : Room}
    (hroom : room.deviceIds.Nodup) :
  NodupRooms (rooms.insert id room)
  := by
  intro id' room' hid'
  rcases FiniteMap.lookup_insert_eq_some.mp hid' with ⟨-, rfl⟩ | ⟨-, hid'⟩
  · apply hroom
  · apply h id' room' hid'

/-- A request puts no device twice into a room. -/
theorem NodupRooms.serve (h : NodupRooms r.rooms) :
  NodupRooms (serve Json.mergePatch q r).1.rooms
  := by
  cases q with
  | deviceAdd id name type =>
      simp only [NexusMainframe.serve]
      split
      next => exact h
      next => split <;> exact h
  | deviceRemove id | deviceCommand id payload =>
      simp only [NexusMainframe.serve]
      split <;> exact h
  | roomAdd id name =>
      simp only [NexusMainframe.serve]
      split
      next => exact h
      next =>
        split
        next => exact h
        next =>
          apply h.insert
          apply List.nodup_nil
  | roomRemove id =>
      simp only [NexusMainframe.serve]
      split
      next => exact h
      next =>
        intro id' room' hid'
        apply h id' room' (FiniteMap.lookup_erase_eq_some.mp hid').2
  | roomAddDevice roomId deviceId =>
      simp only [NexusMainframe.serve]
      split
      next => exact h
      next => exact h
      next room _ hroom _ =>
        split
        next => exact h
        next hnot =>
          apply h.insert
          rw [List.nodup_append_comm]
          apply List.nodup_cons.mpr ⟨hnot, h _ _ hroom⟩
  | roomRemoveDevice roomId deviceId =>
      simp only [NexusMainframe.serve]
      split
      next => exact h
      next room hroom =>
        split
        next =>
          apply h.insert
          apply (h _ _ hroom).erase
        next => exact h

/-- In every run with restarts the registries come back and no room has a device twice. -/
theorem transparent_nodupRooms (hc : c.Spec) (hpretty : pretty.Spec) :
  (system c pretty : System (Services κ) _ _ _).Transparent Services.memory
    fun s => Durable pretty s ∧ NodupRooms s.memory.rooms
  where
  view_take q h := (transparent_system hc hpretty).view_take q h
  output_take q h := (transparent_system hc hpretty).output_take q h
  inv_take {s} q h := by
    use (transparent_system hc hpretty).inv_take q h.1
    rcases (handled hc pretty q.1 s q.2).memory with hsame | ⟨q', -, -, hserve⟩
    · have hrooms : NodupRooms (handle c pretty q.1 s q.2).1.memory.rooms := by
        rw [hsame]
        apply h.2
      exact hrooms
    · have hrooms : NodupRooms (handle c pretty q.1 s q.2).1.memory.rooms := by
        rw [hserve]
        apply h.2.serve
      exact hrooms
  event {s} ending h := by
    obtain ⟨t, ht, hdurable, hmemory⟩ := (transparent_system hc hpretty).event ending h.1
    use t, ht, ⟨hdurable, ?_⟩
    rw [hmemory]
    apply h.2

theorem shows_sendJson (hc : c.Spec) {j : Json} (hj : j.WellFormed) :
  Shows c s j (sendJson c s j)
  := by
  obtain ⟨text, htext⟩ := hc.exists_dump hj.2
  use rfl, text
  constructor
  · rw [sendJson, htext]
    rfl
  · apply hc.parse_dump _ _ hj.1 htext

/-- What a table goes through is listed once. -/
theorem listsOnce_of_lists
    {ε : Type} {entry : RegistryEntry ε} {r : Registry ε} (h : IsSaveable entry r) {es : List ε}
    (hes : Registry.Lists es r) :
  ListsOnce entry r es
  := by
  constructor
  · have hkeys : ((es.map entry.id : List Bytes) : Multiset Bytes) = r.entries.map Sigma.fst := by
      rw [← Multiset.map_coe, hes, Multiset.map_map]
      apply Multiset.map_congr rfl
      intro x hx
      apply h.contents.id_of_lookup (Finmap.mem_lookup_iff.mpr hx)
    rw [← Multiset.coe_nodup, hkeys]
    apply Multiset.nodup_keys.mpr r.nodupKeys
  · intro e
    rw [hes.mem_iff]
    constructor
    · rintro ⟨id, hid⟩
      rwa [h.contents.id_of_lookup hid]
    · intro hid
      use entry.id e

theorem wellFormed_array {js : List Json} (h : ∀ j ∈ js, j.WellFormed) :
  (Json.array js).WellFormed
  := by
  constructor
  · apply Json.proper_array.mpr fun j hj => (h j hj).1
  · apply Json.valid_array.mpr fun j hj => (h j hj).2

theorem wellFormed_array_of_lists
    {ε : Type} {entry : RegistryEntry ε} {r : Registry ε} (h : IsSaveable entry r) {es : List ε}
    (hes : ListsOnce entry r es) :
  (Json.array (es.map entry.toJson)).WellFormed
  := by
  apply wellFormed_array
  intro j hj
  obtain ⟨e, he, rfl⟩ := List.mem_map.mp hj
  apply h.wellFormed_of_lookup ((hes.2 e).mp he)

/-- The devices of a room that are registered. -/
def registeredDevices (s : Services κ) (room : Room) : List Device :=
  room.deviceIds.filterMap fun did => Registry.get s.memory.devices did

theorem expand_eq (s : Services κ) (room : Room) :
  RoomService.expand s room
    = .object (Json.setMember (Bytes.ofAscii "devices")
        (.array ((registeredDevices s room).map Device.toJson)) room.toJson.members)
  := by
  rw [RoomService.expand, registeredDevices, List.map_filterMap]

theorem mem_registeredDevices
    (h : IsSaveable Device.entry s.memory.devices) {room : Room} {d : Device}
    (hd : d ∈ registeredDevices s room) :
  s.memory.devices.lookup d.id = some d
  := by
  obtain ⟨id, -, hid⟩ := List.mem_filterMap.mp hd
  have hlookup : s.memory.devices.lookup id = some d := hid
  have heq := h.contents.id_of_lookup hlookup
  rwa [show d.id = id from heq]

theorem map_id_registeredDevices
    (h : IsSaveable Device.entry s.memory.devices) (room : Room) :
  (registeredDevices s room).map Device.id
    = room.deviceIds.filter (fun id => id ∈ s.memory.devices)
  := by
  rw [registeredDevices, List.map_filterMap, ← List.filterMap_eq_filter]
  apply List.filterMap_congr
  intro id _
  cases hid : s.memory.devices.lookup id with
  | none =>
      have hnot := Finmap.lookup_eq_none.mp hid
      simp [Registry.get, hid, hnot, Option.guard]
  | some d =>
      have hmem : id ∈ s.memory.devices := Finmap.mem_iff.mpr ⟨d, hid⟩
      have heq : d.id = id := h.contents.id_of_lookup hid
      simp [Registry.get, hid, hmem, heq, Option.guard]

/-- A room is shown with its devices. -/
theorem showsRoom_expand
    (h : IsSaveable Device.entry s.memory.devices) {room : Room} (hroom : room.deviceIds.Nodup) :
  ShowsRoom s.memory.devices room (RoomService.expand s room)
  := by
  have hids := map_id_registeredDevices h room
  use registeredDevices s room
  refine ⟨?_, ?_, hids, ?_, fun d hd => mem_registeredDevices h hd⟩
  · rw [expand_eq, Json.member, Json.lookup_setMember, if_pos rfl]
  · intro key hkey
    rw [expand_eq, Json.member, Json.lookup_setMember, if_neg hkey]
    rfl
  · rw [hids]
    apply hroom.filter

theorem wellFormed_expand
    (h : IsSaveable Device.entry s.memory.devices) {room : Room} (hroom : room.toJson.WellFormed) :
  (RoomService.expand s room).WellFormed
  := by
  have hkey : Utf8.Valid (Bytes.ofAscii "devices") := by decide +kernel
  have hdevices : (Json.array ((registeredDevices s room).map Device.toJson)).WellFormed := by
    apply wellFormed_array
    intro j hj
    obtain ⟨d, hd, rfl⟩ := List.mem_map.mp hj
    apply h.wellFormed_of_lookup (mem_registeredDevices h hd)
  rw [expand_eq]
  apply Json.WellFormed.setMember hroom hkey hdevices

end

/-- What the reading requests show of the registries, at any moment. -/
structure ShowsAll (c pretty : Json.Codec) (s : Services κ) : Prop where
  deviceIndex : ∀ m, ∃ ds, ListsOnce Device.entry s.memory.devices ds
    ∧ Shows c s (.array (ds.map Device.toJson)) (handle c pretty m s .deviceIndex)
  deviceShow : ∀ m id d, s.memory.devices.lookup id = some d →
    Shows c s d.toJson (handle c pretty m s (.deviceShow id))
  roomIndex : ∀ m, ∃ rooms js, ListsOnce Room.entry s.memory.rooms rooms
    ∧ List.Forall₂ (ShowsRoom s.memory.devices) rooms js
    ∧ Shows c s (.array js) (handle c pretty m s .roomIndex)
  roomShow : ∀ m id room, s.memory.rooms.lookup id = some room →
    ∃ j, ShowsRoom s.memory.devices room j ∧ Shows c s j (handle c pretty m s (.roomShow id))

/-- Registries that can be saved, with no device twice in a room, are shown. -/
theorem showsAll_of_durable
    {c pretty : Json.Codec} (hc : c.Spec) {s : Services κ} (hdurable : Durable pretty s)
    (hnodup : NodupRooms s.memory.rooms) :
  ShowsAll c pretty s
  := by
  have hdevices := hdurable.devices.saveable
  constructor
  · intro m
    have hlists := listsOnce_of_lists hdevices (m.devices.lists s.memory.devices)
    use m.devices.list s.memory.devices, hlists
    apply shows_sendJson hc (wellFormed_array_of_lists hdevices hlists)
  · intro m id d hd
    rw [handle, DeviceController.show', Registry.get, hd]
    apply shows_sendJson hc (hdevices.wellFormed_of_lookup hd)
  · intro m
    have hlists := listsOnce_of_lists hdurable.rooms (m.rooms.lists s.memory.rooms)
    have hlookup := fun room hroom => (hlists.2 room).mp hroom
    use m.rooms.list s.memory.rooms,
      (m.rooms.list s.memory.rooms).map (RoomService.expand s), hlists
    constructor
    · rw [List.forall₂_map_right_iff, List.forall₂_same]
      intro room hroom
      apply showsRoom_expand hdevices (hnodup _ _ (hlookup room hroom))
    · apply shows_sendJson hc
      apply wellFormed_array
      intro j hj
      obtain ⟨room, hroom, rfl⟩ := List.mem_map.mp hj
      apply wellFormed_expand hdevices (hdurable.rooms.wellFormed_of_lookup (hlookup room hroom))
  · intro m id room hroom
    use RoomService.expand s room, showsRoom_expand hdevices (hnodup _ _ hroom)
    rw [handle, RoomController.show', Registry.get, hroom]
    apply shows_sendJson hc
    apply wellFormed_expand hdevices (hdurable.rooms.wellFormed_of_lookup hroom)

/-- In every state that requests and restarts lead to, the reading requests show the registries. -/
theorem showsAll_of_run
    {c pretty : Json.Codec} (hc : c.Spec) (hpretty : pretty.Spec)
    {acts : List (Act (Moment × HttpRequest) Ending)} {s : Services κ}
    {responses : List (Option Response)}
    (hrun : (system c pretty).run Services.init acts = some (s, responses)) :
  ShowsAll c pretty s
  := by
  have hinit : Durable pretty (Services.init : Services κ) ∧ NodupRooms (∅ : RoomRegistry) := by
    use durable_init pretty
    intro id room hid
    cases hid
  obtain ⟨hdurable, hnodup⟩ := (transparent_nodupRooms hc hpretty).inv_of_run hinit hrun
  exact showsAll_of_durable hc hdurable hnodup

/-- The body of a request that creates a hall. -/
def hallBody : Json :=
  .object [(Bytes.ofAscii "name", .string (Bytes.ofAscii "Hall"))]

/-- A request for a room. -/
def createHall : HttpRequest :=
  .roomCreate (JsonText.print 2 0 hallBody)

/-- The lamp is put into the hall. -/
def putLamp : HttpRequest :=
  .roomAddDevice (generateRoomId 1) (generateId 0)

/-- A lamp that was registered. -/
def lamp : Device :=
  NexusMainframe.DeviceService.device (generateId 0) (Bytes.ofAscii "Lamp") (Bytes.ofAscii "light")

/-- A room with that lamp. -/
def hall : Room :=
  { NexusMainframe.RoomService.room (generateRoomId 1) (Bytes.ofAscii "Hall") with
    deviceIds := [generateId 0] }

/-- The lamp is in the hall. -/
structure HasLampInHall (r : Registries) : Prop where
  lamp : r.devices.lookup (generateId 0) = some Http.lamp
  hall : r.rooms.lookup (generateRoomId 1) = some Http.hall

theorem memory_createHall (m : Moment) (s : Services κ) :
  (handle (JsonText.codec 2) (JsonText.codec 2) m s createHall).1.memory
    = (NexusMainframe.serve Json.mergePatch (.roomAdd (generateRoomId m.drawn)
        (Bytes.ofAscii "Hall")) s.memory).1
  := by
  have hcreate : handle (JsonText.codec 2) (JsonText.codec 2) m s createHall
      = sendResult (JsonText.codec 2) (RoomService.add (JsonText.codec 2) m s
          (Bytes.ofAscii "Hall")) := by
    rw [createHall, handle, RoomController.create,
      JsonText.codec_parse_print (j := hallBody) (by decide +kernel) (by decide +kernel)]
    rfl
  rw [hcreate]
  exact memory_sendResult_of_serves (RoomService.serves_add _)

theorem memory_putLamp (m : Moment) (s : Services κ) :
  (handle (JsonText.codec 2) (JsonText.codec 2) m s putLamp).1.memory
    = (NexusMainframe.serve Json.mergePatch (.roomAddDevice (generateRoomId 1) (generateId 0))
        s.memory).1
  := memory_sendResult_of_serves (RoomService.serves_addDevice _ _)

/-- Three requests to empty registries lead there. -/
theorem hasLampInHall_serve :
  HasLampInHall (NexusMainframe.serve Json.mergePatch
    (.roomAddDevice (generateRoomId 1) (generateId 0))
    (NexusMainframe.serve Json.mergePatch (.roomAdd (generateRoomId 1) (Bytes.ofAscii "Hall"))
      (NexusMainframe.serve Json.mergePatch (.deviceAdd (generateId 0) (Bytes.ofAscii "Lamp")
        (Bytes.ofAscii "light")) ⟨∅, ∅⟩).1).1).1
  := by
  have hdevice : (NexusMainframe.serve Json.mergePatch (.deviceAdd (generateId 0)
      (Bytes.ofAscii "Lamp") (Bytes.ofAscii "light")) ⟨∅, ∅⟩).1
        = ⟨(∅ : DeviceRegistry).insert (generateId 0) lamp, ∅⟩ := rfl
  have hroom : (NexusMainframe.serve Json.mergePatch (.roomAdd (generateRoomId 1)
      (Bytes.ofAscii "Hall")) ⟨(∅ : DeviceRegistry).insert (generateId 0) lamp, ∅⟩).1
        = ⟨(∅ : DeviceRegistry).insert (generateId 0) lamp,
          (∅ : RoomRegistry).insert (generateRoomId 1)
            (NexusMainframe.RoomService.room (generateRoomId 1) (Bytes.ofAscii "Hall"))⟩ := rfl
  rw [hdevice, hroom]
  simp only [NexusMainframe.serve, Finmap.lookup_insert]
  constructor
  · exact Finmap.lookup_insert _
  · exact Finmap.lookup_insert _

/-- A lamp and a hall are created and the lamp is put there, with restarts in between. -/
noncomputable def hallActs : List (Act (Moment × HttpRequest) Ending) :=
  [.input (Moment.newYear, createLamp), .event .killed,
    .input (Moment.newYear.drawing 1, createHall), .event (.stopped Moment.newYear),
    .input (Moment.newYear, putLamp)]

theorem showsAll_of_run_hall :
  ∃ (s : Services Unit) (responses : List (Option Response)),
    (system (JsonText.codec 2) (JsonText.codec 2)).run Services.init hallActs = some (s, responses)
      ∧ HasLampInHall s.memory ∧ ShowsAll (JsonText.codec 2) (JsonText.codec 2) s
  := by
  have hspec := JsonText.codec_spec 2
  obtain ⟨s, hrun, -, hmemory⟩ := (transparent_system (κ := Unit) hspec hspec).exists_run
    (durable_init _) rfl hallActs
  refine ⟨s, _, hrun, ?_, showsAll_of_run hspec hspec hrun⟩
  have hend : ((system (JsonText.codec 2) (JsonText.codec 2)).takeAll
      (Services.init : Services Unit) (Hidden.inputs hallActs)).1
        = (handle (JsonText.codec 2) (JsonText.codec 2) Moment.newYear
            (handle (JsonText.codec 2) (JsonText.codec 2) (Moment.newYear.drawing 1)
              (handle (JsonText.codec 2) (JsonText.codec 2) Moment.newYear Services.init
                createLamp).1 createHall).1 putLamp).1 := rfl
  rw [hmemory, hend, memory_putLamp, memory_createHall, memory_createLamp]
  exact hasLampInHall_serve

end Http

end NexusMainframe
