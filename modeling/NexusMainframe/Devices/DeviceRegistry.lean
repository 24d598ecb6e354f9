import NexusMainframe.Devices.Device

/-!
# The device registry

The registry of devices. A patch of a device's state is merged into it; `merge state patch`
is the merged state.
-/

namespace NexusMainframe

/-- The devices by their ids. -/
abbrev DeviceRegistry :=
  Registry Device

namespace DeviceRegistry

/-- `load` of `devices.json`, which keeps what was read before something is wrong. -/
def load (parse : Bytes → Option Json) (r : DeviceRegistry) (file : Option Bytes) :
    Option DeviceRegistry :=
  Registry.load Device.entry parse r file

/-- `save`: the text of the devices in the order of the table. -/
def save (dump : Json → Option Bytes) (ds : List Device) : Option Bytes :=
  Registry.save Device.entry dump ds

/-- `add`: a device whose id is taken is refused. -/
def add (r : DeviceRegistry) (device : Device) : DeviceRegistry × Bool :=
  Registry.add Device.entry r device

/-- `exists`. -/
def exists' (r : DeviceRegistry) (id : Bytes) : Bool :=
  Registry.exists' r id

/-- `remove`: whether there was such a device. -/
def remove (r : DeviceRegistry) (id : Bytes) : DeviceRegistry × Bool :=
  Registry.remove r id

/-- `updateState`: whether there is such a device. -/
def updateState (merge : Json → Json → Json) (r : DeviceRegistry) (id : Bytes) (patch : Json) :
    DeviceRegistry × Bool :=
  match Finmap.lookup id r with
  | none => (r, false)
  | some d => (Finmap.insert id { d with state := merge d.state patch } r, true)

end DeviceRegistry

end NexusMainframe
