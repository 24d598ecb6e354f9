import NexusMainframe.Registry.Registry

/-!
# Devices

A device, its JSON value, and the device that a JSON value describes: members that are
absent have defaults, and one of another type makes the conversion fail.
-/

namespace NexusMainframe

/-- A device as it is kept in the registry, with a state whose shape is up to its type. -/
structure Device where
  id : Bytes
  name : Bytes
  type : Bytes
  state : Json
  online : Bool

namespace Device

/-- The members are kept in the order of their keys. -/
def toJson (d : Device) : Json :=
  .object
    [(Bytes.ofAscii "id", .string d.id), (Bytes.ofAscii "name", .string d.name),
      (Bytes.ofAscii "online", .boolean d.online), (Bytes.ofAscii "state", d.state),
      (Bytes.ofAscii "type", .string d.type)]

/-- `fromJson`: a member that is absent has its default, and one of another type makes it throw.
-/
def fromJson (j : Json) : Option Device := do
  let id ← j.valueAs Json.asString (Bytes.ofAscii "id") []
  let name ← j.valueAs Json.asString (Bytes.ofAscii "name") []
  let type ← j.valueAs Json.asString (Bytes.ofAscii "type") []
  let state ← j.valueAs some (Bytes.ofAscii "state") (.object [])
  let online ← j.valueAs Json.asBoolean (Bytes.ofAscii "online") false
  some ⟨id, name, type, state, online⟩

theorem proper_toJson {d : Device} :
  d.toJson.Proper ↔ d.state.Proper
  := by
  have hkeys : (["id", "name", "online", "state", "type"].map Bytes.ofAscii).Pairwise
      Json.KeyLt := by
    decide
  rw [toJson, Json.proper_object]
  simp only [List.map_cons, List.map_nil] at hkeys ⊢
  rw [and_iff_right hkeys]
  simp

theorem valid_toJson {d : Device} :
  d.toJson.Valid ↔ Utf8.Valid d.id ∧ Utf8.Valid d.name ∧ d.state.Valid ∧ Utf8.Valid d.type
  := by
  have hkeys : ∀ name ∈ ["id", "name", "online", "state", "type"],
      Utf8.Valid (Bytes.ofAscii name) := by
    decide +kernel
  simp only [List.forall_mem_cons, List.not_mem_nil, false_imp_iff, implies_true,
    and_true] at hkeys
  obtain ⟨hid, hname, honline, hstate, htype⟩ := hkeys
  simp only [toJson, Json.valid_object, Json.valid_string, Json.valid_boolean,
    List.forall_mem_cons, List.not_mem_nil, false_imp_iff, implies_true, and_true, hid, hname,
    honline, hstate, htype, true_and]

/-- What a device that is read comes from. -/
theorem fromJson_eq_some
    {j : Json} {d : Device} (h : fromJson j = some d) :
  ∃ id name type state online, j.valueAs Json.asString (Bytes.ofAscii "id") [] = some id
    ∧ j.valueAs Json.asString (Bytes.ofAscii "name") [] = some name
    ∧ j.valueAs Json.asString (Bytes.ofAscii "type") [] = some type
    ∧ j.valueAs some (Bytes.ofAscii "state") (.object []) = some state
    ∧ j.valueAs Json.asBoolean (Bytes.ofAscii "online") false = some online
    ∧ d = ⟨id, name, type, state, online⟩
  := by
  simp only [fromJson, Option.bind_eq_bind, Option.bind_eq_some_iff] at h
  obtain ⟨id, hid, name, hname, type, htype, state, hstate, online, honline, ⟨⟩⟩ := h
  use id, name, type, state, online, hid, hname, htype, hstate, honline

/-- How devices are kept in a registry. -/
def entry : RegistryEntry Device where
  id := id
  toJson := toJson
  fromJson := fromJson
  fromJson_toJson d := rfl
  member_id_toJson d := rfl
  id_fromJson j d h := by
    obtain ⟨id, name, type, state, online, hid, -, -, -, -, rfl⟩ := fromJson_eq_some h
    apply hid
  proper_fromJson j d hj h := by
    obtain ⟨id, name, type, state, online, -, -, -, hstate, -, rfl⟩ := fromJson_eq_some h
    have hobject : (Json.object []).Proper := by decide
    rw [proper_toJson]
    rcases Json.valueAs_eq_some hstate with ⟨-, rfl⟩ | ⟨v, hv, ⟨⟩⟩
    · apply hobject
    · apply hj.member hv
  valid_fromJson j d hj h := by
    obtain ⟨id, name, type, state, online, hid, hname, htype, hstate, -, rfl⟩ :=
      fromJson_eq_some h
    have hempty : Utf8.Valid [] := by decide
    have hobject : (Json.object []).Valid := by decide
    rw [valid_toJson]
    use hj.valueAs_asString hempty hid, hj.valueAs_asString hempty hname
    constructor
    · rcases Json.valueAs_eq_some hstate with ⟨-, rfl⟩ | ⟨v, hv, ⟨⟩⟩
      · apply hobject
      · apply hj.member hv
    · apply hj.valueAs_asString hempty htype

end Device

end NexusMainframe
