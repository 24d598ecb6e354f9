import NexusMainframe.Registry.Registry

/-!
# Rooms

A room, its JSON value, and the room that a JSON value describes: members that are absent
have defaults, and one of another type makes the conversion fail.
-/

namespace NexusMainframe

/-- A room with the ids of its devices, which may be gone from their registry. -/
structure Room where
  id : Bytes
  name : Bytes
  deviceIds : List Bytes
deriving DecidableEq

namespace Room

/-- The members are kept in the order of their keys. -/
def toJson (r : Room) : Json :=
  .object
    [(Bytes.ofAscii "deviceIds", .array (r.deviceIds.map .string)),
      (Bytes.ofAscii "id", .string r.id), (Bytes.ofAscii "name", .string r.name)]

/-- `fromJson`: a member that is absent has its default, and one of another type makes it throw.
-/
def fromJson (j : Json) : Option Room := do
  let id ← j.valueAs Json.asString (Bytes.ofAscii "id") []
  let name ← j.valueAs Json.asString (Bytes.ofAscii "name") []
  let deviceIds ← j.valueAs Json.asStrings (Bytes.ofAscii "deviceIds") []
  some ⟨id, name, deviceIds⟩

theorem proper_toJson (r : Room) :
  r.toJson.Proper
  := by
  have hkeys : (["deviceIds", "id", "name"].map Bytes.ofAscii).Pairwise Json.KeyLt := by decide
  rw [toJson, Json.proper_object]
  simp only [List.map_cons, List.map_nil] at hkeys ⊢
  use hkeys
  simp

theorem valid_toJson {r : Room} :
  r.toJson.Valid
    ↔ (∀ id ∈ r.deviceIds, Utf8.Valid id) ∧ Utf8.Valid r.id ∧ Utf8.Valid r.name
  := by
  have hkeys : ∀ name ∈ ["deviceIds", "id", "name"], Utf8.Valid (Bytes.ofAscii name) := by
    decide +kernel
  simp only [List.forall_mem_cons, List.not_mem_nil, false_imp_iff, implies_true,
    and_true] at hkeys
  obtain ⟨hdevices, hid, hname⟩ := hkeys
  simp [toJson, hdevices, hid, hname]

/-- What a room that is read comes from. -/
theorem fromJson_eq_some
    {j : Json} {r : Room} (h : fromJson j = some r) :
  ∃ id name deviceIds, j.valueAs Json.asString (Bytes.ofAscii "id") [] = some id
    ∧ j.valueAs Json.asString (Bytes.ofAscii "name") [] = some name
    ∧ j.valueAs Json.asStrings (Bytes.ofAscii "deviceIds") [] = some deviceIds
    ∧ r = ⟨id, name, deviceIds⟩
  := by
  simp only [fromJson, Option.bind_eq_bind, Option.bind_eq_some_iff] at h
  obtain ⟨id, hid, name, hname, deviceIds, hdevices, ⟨⟩⟩ := h
  use id, name, deviceIds, hid, hname, hdevices

/-- How rooms are kept in a registry. -/
def entry : RegistryEntry Room where
  id := id
  toJson := toJson
  fromJson := fromJson
  fromJson_toJson r := by
    have hdevices : r.toJson.valueAs Json.asStrings (Bytes.ofAscii "deviceIds") []
        = some r.deviceIds := Json.mapM_asString_map r.deviceIds
    simp only [fromJson, hdevices]
    rfl
  member_id_toJson r := rfl
  id_fromJson j r h := by
    obtain ⟨id, name, deviceIds, hid, -, -, rfl⟩ := fromJson_eq_some h
    apply hid
  proper_fromJson j r _ _ := proper_toJson r
  valid_fromJson j r hj h := by
    obtain ⟨id, name, deviceIds, hid, hname, hdevices, rfl⟩ := fromJson_eq_some h
    have hempty : Utf8.Valid [] := by decide
    rw [valid_toJson]
    constructor
    · apply hj.valueAs_asStrings hdevices
    · constructor
      · apply hj.valueAs_asString hempty hid
      · apply hj.valueAs_asString hempty hname

/-- A room with a device. -/
def hall : Room where
  id := Bytes.ofAscii "r1"
  name := Bytes.ofAscii "Hall"
  deviceIds := [Bytes.ofAscii "d1"]

end Room

end NexusMainframe
