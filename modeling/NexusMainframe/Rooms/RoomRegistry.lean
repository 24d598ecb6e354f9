import NexusMainframe.Rooms.Room

/-!
# The room registry

The registry of rooms, with the operations on the devices of a room.
-/

namespace NexusMainframe

/-- The rooms by their ids. -/
abbrev RoomRegistry :=
  Registry Room

namespace RoomRegistry

/-- `load` of `rooms.json`, which keeps what was read before something is wrong. -/
def load (parse : Bytes → Option Json) (r : RoomRegistry) (file : Option Bytes) :
    Option RoomRegistry :=
  Registry.load Room.entry parse r file

/-- `save`: the text of the rooms in the order of the table. -/
def save (dump : Json → Option Bytes) (rs : List Room) : Option Bytes :=
  Registry.save Room.entry dump rs

/-- `add`: a room whose id is taken is refused. -/
def add (r : RoomRegistry) (room : Room) : RoomRegistry × Bool :=
  Registry.add Room.entry r room

/-- `exists`. -/
def exists' (r : RoomRegistry) (id : Bytes) : Bool :=
  Registry.exists' r id

/-- `remove`: whether there was such a room. -/
def remove (r : RoomRegistry) (id : Bytes) : RoomRegistry × Bool :=
  Registry.remove r id

/-- `addDevice` puts the id behind the others; it is false for a room that is not there and for a
device that is in it. -/
def addDevice (r : RoomRegistry) (roomId deviceId : Bytes) : RoomRegistry × Bool :=
  match Finmap.lookup roomId r with
  | none => (r, false)
  | some room =>
      if deviceId ∈ room.deviceIds then (r, false)
      else
        (Finmap.insert roomId { room with deviceIds := room.deviceIds ++ [deviceId] } r, true)

/-- `removeDevice` takes the id out; it is false for a room that is not there and for a device
that is not in it. -/
def removeDevice (r : RoomRegistry) (roomId deviceId : Bytes) : RoomRegistry × Bool :=
  match Finmap.lookup roomId r with
  | none => (r, false)
  | some room =>
      if deviceId ∈ room.deviceIds then
        (Finmap.insert roomId { room with deviceIds := room.deviceIds.erase deviceId } r, true)
      else (r, false)

end RoomRegistry

end NexusMainframe
