import NexusMainframe.Lib.JsonPatch
import NexusMainframe.Lib.JsonText
import NexusMainframe.Services.Requests

/-!
# Loading what was saved

A registry that operations have built from nothing keeps every value under its id, and the
values have strings that are UTF-8 when the operations had. So `save` writes it, in whatever
order its table goes through the values, and `load` makes the same registry of the file.
-/

namespace NexusMainframe

namespace Registry

variable {ε : Type} {entry : RegistryEntry ε} {r : Registry ε}

/-- The values are kept under their ids and have JSON values that can be written. -/
structure IsSaveable (entry : RegistryEntry ε) (r : Registry ε) : Prop where
  contents : IsContents entry r
  valid_of_lookup : ∀ {id e}, r.lookup id = some e → (entry.toJson e).Valid

/-- Whatever the order in which the values are written, they are written and loaded again. -/
def Restores (entry : RegistryEntry ε) (c : Json.Codec) (r : Registry ε) : Prop :=
  ∀ es, Lists es r →
    ∃ text, save entry c.dump es = some text ∧ load entry c.parse ∅ (some text) = some r

theorem isSaveable_empty (entry : RegistryEntry ε) :
  IsSaveable entry ∅
  := by
  use isContents_empty entry
  intro id e h
  cases h

namespace IsSaveable

theorem insert (h : IsSaveable entry r) {e : ε} (he : (entry.toJson e).WellFormed) :
  IsSaveable entry (r.insert (entry.id e) e)
  := by
  use h.contents.insert he.1
  intro id e' hid
  rcases FiniteMap.lookup_insert_eq_some.mp hid with ⟨-, rfl⟩ | ⟨-, hid⟩
  · apply he.2
  · apply h.valid_of_lookup hid

theorem add (h : IsSaveable entry r) {e : ε} (he : (entry.toJson e).WellFormed) :
  IsSaveable entry (add entry r e).1
  := by
  unfold Registry.add
  split
  · apply h
  · apply h.insert he

theorem remove (h : IsSaveable entry r) (id : Bytes) :
  IsSaveable entry (remove r id).1
  := by
  use h.contents.remove id
  intro id' e hid
  unfold Registry.remove at hid
  split at hid
  · apply h.valid_of_lookup (FiniteMap.lookup_erase_eq_some.mp hid).2
  · apply h.valid_of_lookup hid

/-- A value that is there is replaced by another with its id. -/
theorem replace
    (h : IsSaveable entry r) {id : Bytes} {e e' : ε} (hid : r.lookup id = some e)
    (heq : entry.id e' = entry.id e) (he' : (entry.toJson e').WellFormed) :
  IsSaveable entry (r.insert id e')
  := by
  rw [← h.contents.id_of_lookup hid, ← heq]
  apply h.insert he'

theorem wellFormed_of_lookup
    (h : IsSaveable entry r) {id : Bytes} {e : ε} (hid : r.lookup id = some e) :
  (entry.toJson e).WellFormed
  := ⟨h.contents.proper_of_lookup hid, h.valid_of_lookup hid⟩

theorem restores {c : Json.Codec} (hc : c.Spec) (h : IsSaveable entry r) :
  Restores entry c r
  := by
  intro es hes
  have hwritten : ∀ e ∈ es, (entry.toJson e).Proper ∧ (entry.toJson e).Valid := by
    intro e he
    obtain ⟨id, hid⟩ := hes.mem_iff.mp he
    apply h.wellFormed_of_lookup hid
  obtain ⟨text, htext, -⟩ := parse_save hc hwritten
  use text, htext
  apply h.contents.load_save hc hes htext

end IsSaveable

end Registry

open Registry (IsSaveable)

/-! ### Devices -/

/-- The strings of the operation are UTF-8, and its states are JSON values. -/
def DeviceOp.WellFormed : DeviceOp → Prop
  | .add d =>
      Utf8.Valid d.id ∧ Utf8.Valid d.name ∧ Utf8.Valid d.type ∧ d.state.WellFormed
  | .updateState id patch => Utf8.Valid id ∧ patch.WellFormed
  | .exists' id | .remove id => Utf8.Valid id

instance : DecidablePred DeviceOp.WellFormed
  | .add d =>
      inferInstanceAs (Decidable
        (Utf8.Valid d.id ∧ Utf8.Valid d.name ∧ Utf8.Valid d.type ∧ d.state.WellFormed))
  | .updateState id patch => inferInstanceAs (Decidable (Utf8.Valid id ∧ patch.WellFormed))
  | .exists' id | .remove id => inferInstanceAs (Decidable (Utf8.Valid id))

/-- The registry after some operations. -/
def DeviceOp.run (merge : Json → Json → Json) (r : DeviceRegistry) (ops : List DeviceOp) :
    DeviceRegistry :=
  ops.foldl (fun r op => (op.apply merge r).1) r

theorem Device.wellFormed_toJson {d : Device} :
  d.toJson.WellFormed
    ↔ Utf8.Valid d.id ∧ Utf8.Valid d.name ∧ Utf8.Valid d.type ∧ d.state.WellFormed
  := by
  rw [Json.WellFormed, Json.WellFormed, proper_toJson, valid_toJson]
  tauto

/-- Merging keeps JSON values. -/
def KeepsWellFormed (merge : Json → Json → Json) : Prop :=
  ∀ j patch, j.WellFormed → patch.WellFormed → (merge j patch).WellFormed

theorem DeviceOp.isSaveable_apply
    {merge : Json → Json → Json} (hmerge : KeepsWellFormed merge) {r : DeviceRegistry}
    (hr : IsSaveable Device.entry r) {op : DeviceOp} (hop : op.WellFormed) :
  IsSaveable Device.entry (op.apply merge r).1
  := by
  cases op with
  | add d => exact hr.add (Device.wellFormed_toJson.mpr hop)
  | exists' id => exact hr
  | remove id => exact hr.remove id
  | updateState id patch =>
      rw [apply_updateState]
      split
      next => exact hr
      next d hid =>
        obtain ⟨hd, hname, htype, hstate⟩ :=
          Device.wellFormed_toJson.mp (hr.wellFormed_of_lookup hid)
        have hd' : ({ d with state := merge d.state patch } : Device).toJson.WellFormed := by
          apply Device.wellFormed_toJson.mpr
          use hd, hname, htype
          apply hmerge _ _ hstate hop.2
        exact hr.replace hid rfl hd'

theorem DeviceOp.isSaveable_run
    {merge : Json → Json → Json} (hmerge : KeepsWellFormed merge) {r : DeviceRegistry}
    (hr : IsSaveable Device.entry r) {ops : List DeviceOp} (hops : ∀ op ∈ ops, op.WellFormed) :
  IsSaveable Device.entry (DeviceOp.run merge r ops)
  := by
  induction ops generalizing r with
  | nil => apply hr
  | cons op ops ih =>
      obtain ⟨hop, hops⟩ := List.forall_mem_cons.mp hops
      apply ih (DeviceOp.isSaveable_apply hmerge hr hop) hops

/-! ### Rooms -/

/-- The strings of the operation are UTF-8. -/
def RoomOp.WellFormed : RoomOp → Prop
  | .add room =>
      (∀ id ∈ room.deviceIds, Utf8.Valid id) ∧ Utf8.Valid room.id ∧ Utf8.Valid room.name
  | .exists' id | .remove id => Utf8.Valid id
  | .addDevice roomId deviceId | .removeDevice roomId deviceId =>
      Utf8.Valid roomId ∧ Utf8.Valid deviceId

instance : DecidablePred RoomOp.WellFormed
  | .add room =>
      inferInstanceAs (Decidable
        ((∀ id ∈ room.deviceIds, Utf8.Valid id) ∧ Utf8.Valid room.id ∧ Utf8.Valid room.name))
  | .exists' id | .remove id => inferInstanceAs (Decidable (Utf8.Valid id))
  | .addDevice roomId deviceId | .removeDevice roomId deviceId =>
      inferInstanceAs (Decidable (Utf8.Valid roomId ∧ Utf8.Valid deviceId))

/-- The registry after some operations. -/
def RoomOp.run (r : RoomRegistry) (ops : List RoomOp) : RoomRegistry :=
  ops.foldl (fun r op => (op.apply r).1) r

theorem Room.wellFormed_toJson {room : Room} :
  room.toJson.WellFormed
    ↔ (∀ id ∈ room.deviceIds, Utf8.Valid id) ∧ Utf8.Valid room.id ∧ Utf8.Valid room.name
  := by
  rw [Json.WellFormed, valid_toJson, and_iff_right (proper_toJson room)]

/-- The devices of a room are replaced. -/
theorem RoomOp.isSaveable_insert
    {r : RoomRegistry} (hr : IsSaveable Room.entry r) {id : Bytes} {room : Room}
    (hid : Finmap.lookup id r = some room) {deviceIds : List Bytes}
    (hdevices : ∀ d ∈ deviceIds, d ∈ room.deviceIds ∨ Utf8.Valid d) :
  IsSaveable Room.entry (Finmap.insert id { room with deviceIds := deviceIds } r)
  := by
  obtain ⟨hvalid, hroom⟩ := Room.wellFormed_toJson.mp (hr.wellFormed_of_lookup hid)
  have hroom' : ({ room with deviceIds := deviceIds } : Room).toJson.WellFormed := by
    apply Room.wellFormed_toJson.mpr
    refine ⟨?_, hroom⟩
    intro d hd
    rcases hdevices d hd with hmem | hd
    · apply hvalid d hmem
    · apply hd
  exact hr.replace hid rfl hroom'

theorem RoomOp.isSaveable_apply
    {r : RoomRegistry} (hr : IsSaveable Room.entry r) {op : RoomOp} (hop : op.WellFormed) :
  IsSaveable Room.entry (op.apply r).1
  := by
  cases op with
  | add room => exact hr.add (Room.wellFormed_toJson.mpr hop)
  | exists' id => exact hr
  | remove id => exact hr.remove id
  | addDevice roomId deviceId =>
      rw [apply, RoomRegistry.addDevice]
      split
      next => exact hr
      next room hid =>
        split
        next => exact hr
        next =>
          apply RoomOp.isSaveable_insert hr hid
          intro d hd
          rcases List.mem_append.mp hd with hmem | hnew
          · left
            exact hmem
          · right
            rw [List.mem_singleton.mp hnew]
            exact hop.2
  | removeDevice roomId deviceId =>
      rw [apply, RoomRegistry.removeDevice]
      split
      next => exact hr
      next room hid =>
        split
        next =>
          apply RoomOp.isSaveable_insert hr hid
          intro d hd
          left
          exact List.mem_of_mem_erase hd
        next => exact hr

theorem RoomOp.isSaveable_run
    {r : RoomRegistry} (hr : IsSaveable Room.entry r) {ops : List RoomOp}
    (hops : ∀ op ∈ ops, op.WellFormed) :
  IsSaveable Room.entry (RoomOp.run r ops)
  := by
  induction ops generalizing r with
  | nil => apply hr
  | cons op ops ih =>
      obtain ⟨hop, hops⟩ := List.forall_mem_cons.mp hops
      apply ih (RoomOp.isSaveable_apply hr hop) hops

/-! ### Both registries -/

/-- What was saved of a registry that operations have built is loaded again. -/
theorem restores_run
    {c : Json.Codec} (hc : c.Spec) {merge : Json → Json → Json} (hmerge : KeepsWellFormed merge)
    {deviceOps : List DeviceOp} (hdevices : ∀ op ∈ deviceOps, op.WellFormed)
    {roomOps : List RoomOp} (hrooms : ∀ op ∈ roomOps, op.WellFormed) :
  Registry.Restores Device.entry c (DeviceOp.run merge ∅ deviceOps)
    ∧ Registry.Restores Room.entry c (RoomOp.run ∅ roomOps)
  := by
  constructor
  · apply IsSaveable.restores hc
    apply DeviceOp.isSaveable_run hmerge (Registry.isSaveable_empty Device.entry) hdevices
  · apply IsSaveable.restores hc
    apply RoomOp.isSaveable_run (Registry.isSaveable_empty Room.entry) hrooms

/-- A lamp that is switched on. -/
def lampOps : List DeviceOp :=
  [.add ⟨Bytes.ofAscii "d1", Bytes.ofAscii "Lamp", Bytes.ofAscii "light",
      .object [(Bytes.ofAscii "on", .boolean false)], true⟩,
    .updateState (Bytes.ofAscii "d1") (.object [(Bytes.ofAscii "on", .boolean true)])]

/-- A room whose device is replaced. -/
def hallOps : List RoomOp :=
  [.add Room.hall, .addDevice (Bytes.ofAscii "r1") (Bytes.ofAscii "d2"),
    .removeDevice (Bytes.ofAscii "r1") (Bytes.ofAscii "d1")]

theorem restores_run_lamp_hall :
  Registry.Restores Device.entry (JsonText.codec 2) (DeviceOp.run Json.mergePatch ∅ lampOps)
    ∧ Registry.Restores Room.entry (JsonText.codec 2) (RoomOp.run ∅ hallOps)
  := by
  apply restores_run (JsonText.codec_spec 2)
  · intro j patch hj hpatch
    apply hj.mergePatch hpatch
  · decide +kernel
  · decide +kernel

end NexusMainframe
