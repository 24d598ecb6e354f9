import NexusMainframe.Services.Requests

/-!
# The devices of the rooms

A device is checked to be registered before it is put into a room, but a device that is
removed stays in the rooms that list it, and a device can be removed after the check.

Until one of the two happens, `ListsRegistered` holds: the rooms list registered devices.
-/

namespace NexusMainframe

open Interleaving (Prog Pool Act AllCall Allows next)

/-- The devices that rooms list are registered. -/
def ListsRegistered (s : Registries) : Prop :=
  ∀ roomId room, s.rooms.lookup roomId = some room → ∀ id ∈ room.deviceIds, id ∈ s.devices

/-- A device to remove is in no room, and one to put into a room is registered. -/
def KeepsListed (s : Registries) : Op → Prop
  | .devices (.remove id) =>
      ∀ roomId room, s.rooms.lookup roomId = some room → id ∉ room.deviceIds
  | .rooms (.addDevice roomId deviceId) => roomId ∈ s.rooms → deviceId ∈ s.devices
  | _ => True

instance decidableKeepsListed (s : Registries) : ∀ op, Decidable (KeepsListed s op)
  | .devices (.remove id) =>
      decidable_of_iff (∀ x ∈ s.rooms.entries, id ∉ x.2.deviceIds) (by
        constructor
        · intro h roomId room hroom
          apply h ⟨roomId, room⟩ (Finmap.mem_lookup_iff.mp hroom)
        · rintro h ⟨roomId, room⟩ hx
          apply h roomId room (Finmap.mem_lookup_iff.mpr hx))
  | .rooms (.addDevice roomId deviceId) =>
      inferInstanceAs (Decidable (roomId ∈ s.rooms → deviceId ∈ s.devices))
  | .devices (.add _) | .devices (.exists' _) | .devices (.updateState _ _) => isTrue trivial
  | .rooms (.add _) | .rooms (.exists' _) | .rooms (.remove _) => isTrue trivial
  | .rooms (.removeDevice _ _) => isTrue trivial
  | .saveDevices | .saveRooms => isTrue trivial

/-- A room that is added lists no device. -/
def AddsBare : Op → Prop
  | .rooms (.add room) => room.deviceIds = []
  | _ => True

theorem calls_addsBare (q : Request) :
  q.program.Calls AddsBare
  := by
  cases q with
  | deviceAdd id name type =>
      simp only [Request.program, DeviceService.add]
      split
      next => trivial
      next => simp [Prog.Calls, AddsBare]
  | deviceRemove id => simp [Request.program, DeviceService.remove, Prog.Calls, AddsBare]
  | deviceCommand id payload =>
      simp [Request.program, DeviceService.command, Prog.Calls, AddsBare]
  | roomAdd id name =>
      simp only [Request.program, RoomService.add]
      split
      next => trivial
      next => simp [RoomService.room, Prog.Calls, AddsBare]
  | roomRemove id => simp [Request.program, RoomService.remove, Prog.Calls, AddsBare]
  | roomAddDevice roomId deviceId =>
      simp [Request.program, RoomService.addDevice, Prog.Calls, AddsBare]
  | roomRemoveDevice roomId deviceId =>
      simp [Request.program, RoomService.removeDevice, Prog.Calls, AddsBare]

variable {merge : Json → Json → Json}

/-! ### One operation -/

/-- More devices keep it. -/
theorem ListsRegistered.of_devices
    {s : Registries} (h : ListsRegistered s) {devices : DeviceRegistry}
    (hdevices : ∀ id ∈ s.devices, id ∈ devices) :
  ListsRegistered ⟨devices, s.rooms⟩
  := fun roomId room hroom id hid => hdevices id (h roomId room hroom id hid)

/-- Fewer devices in the rooms keep it. -/
theorem ListsRegistered.of_rooms
    {s : Registries} (h : ListsRegistered s) {rooms : RoomRegistry}
    (hrooms : ∀ roomId room, rooms.lookup roomId = some room → ∀ id ∈ room.deviceIds,
      ∃ room', s.rooms.lookup roomId = some room' ∧ id ∈ room'.deviceIds) :
  ListsRegistered ⟨s.devices, rooms⟩
  := by
  intro roomId room hroom id hid
  obtain ⟨room', hroom', hid'⟩ := hrooms roomId room hroom id hid
  apply h roomId room' hroom' id hid'

theorem listsRegistered_devices_iff
    {s : Registries} (h : ListsRegistered s) (op : DeviceOp) :
  ListsRegistered ⟨(op.apply merge s.devices).1, s.rooms⟩ ↔ KeepsListed s (.devices op)
  := by
  cases op with
  | add d =>
      apply iff_of_true _ trivial
      apply h.of_devices
      intro id hid
      rw [DeviceOp.apply_add]
      split
      · apply Finmap.mem_insert.mpr (Or.inr hid)
      · apply hid
  | exists' id => apply iff_of_true h trivial
  | remove id =>
      rw [DeviceOp.apply_remove, KeepsListed]
      cases hd : s.devices.lookup id with
      | none =>
          apply iff_of_true h
          intro roomId room hroom hid
          apply Finmap.lookup_eq_none.mp hd (h roomId room hroom id hid)
      | some d =>
          constructor
          · intro h' roomId room hroom hid
            apply (Finmap.mem_erase.mp (h' roomId room hroom id hid)).1 rfl
          · intro hnot roomId room hroom id' hid'
            apply Finmap.mem_erase.mpr
            constructor
            · rintro rfl
              apply hnot roomId room hroom hid'
            · apply h roomId room hroom id' hid'
  | updateState id patch =>
      apply iff_of_true _ trivial
      apply h.of_devices
      intro id' hid'
      rw [DeviceOp.apply_updateState]
      split
      · apply hid'
      · apply Finmap.mem_insert.mpr (Or.inr hid')

/-- A device put into a room keeps it just if it is registered. -/
theorem listsRegistered_insert_iff
    {s : Registries} (h : ListsRegistered s) {roomId deviceId : Bytes} {room : Room}
    (hroom : s.rooms.lookup roomId = some room) :
  ListsRegistered
      ⟨s.devices, s.rooms.insert roomId { room with deviceIds := room.deviceIds ++ [deviceId] }⟩
    ↔ deviceId ∈ s.devices
  := by
  constructor
  · intro h'
    apply h' roomId _ (Finmap.lookup_insert _) deviceId
    simp
  · intro hdevice roomId' room' hroom' id hid
    rcases FiniteMap.lookup_insert_eq_some.mp hroom' with ⟨-, rfl⟩ | ⟨-, hroom'⟩
    · rcases List.mem_append.mp hid with hid | hid
      · apply h roomId room hroom id hid
      · obtain rfl := List.mem_singleton.mp hid
        apply hdevice
    · apply h roomId' room' hroom' id hid

theorem listsRegistered_rooms_iff
    {s : Registries} (h : ListsRegistered s) {op : RoomOp} (hop : AddsBare (.rooms op)) :
  ListsRegistered ⟨s.devices, (op.apply s.rooms).1⟩ ↔ KeepsListed s (.rooms op)
  := by
  cases op with
  | add room =>
      apply iff_of_true _ trivial
      apply h.of_rooms
      intro roomId room' hroom' id hid
      rw [RoomOp.apply_add] at hroom'
      split at hroom'
      · rcases FiniteMap.lookup_insert_eq_some.mp hroom' with ⟨-, rfl⟩ | ⟨-, hroom'⟩
        · have hbare : room'.deviceIds = [] := hop
          rw [hbare] at hid
          cases hid
        · use room', hroom'
      · use room', hroom'
  | exists' id => apply iff_of_true h trivial
  | remove id =>
      apply iff_of_true _ trivial
      apply h.of_rooms
      intro roomId room hroom id' hid'
      rw [RoomOp.apply_remove] at hroom
      split at hroom
      · use room, hroom
      · use room, (FiniteMap.lookup_erase_eq_some.mp hroom).2
  | addDevice roomId deviceId =>
      rw [RoomOp.apply_addDevice, KeepsListed]
      cases hroom : s.rooms.lookup roomId with
      | none =>
          apply iff_of_true h
          intro hmem
          cases Finmap.lookup_eq_none.mp hroom hmem
      | some room =>
          have hmem : roomId ∈ s.rooms := Finmap.mem_iff.mpr ⟨room, hroom⟩
          simp only [hmem, true_imp_iff]
          split
          next hin => apply iff_of_true h (h roomId room hroom deviceId hin)
          next =>
            apply listsRegistered_insert_iff h hroom
  | removeDevice roomId deviceId =>
      apply iff_of_true _ trivial
      apply h.of_rooms
      intro roomId' room' hroom' id hid
      rw [RoomOp.apply_removeDevice] at hroom'
      split at hroom'
      next => use room', hroom'
      next room hroom =>
        split at hroom'
        next =>
          rcases FiniteMap.lookup_insert_eq_some.mp hroom' with ⟨rfl, rfl⟩ | ⟨-, hroom'⟩
          · use room, hroom, List.mem_of_mem_erase hid
          · use room', hroom'
        next => use room', hroom'

/-- An operation keeps it just if `KeepsListed` holds. -/
theorem listsRegistered_apply_iff
    {s : Store} (h : ListsRegistered s.memory) {op : Op} (hop : AddsBare op) :
  ListsRegistered (op.apply merge s).1.memory ↔ KeepsListed s.memory op
  := by
  cases op with
  | devices op => apply listsRegistered_devices_iff h op
  | rooms op => apply listsRegistered_rooms_iff h hop
  | saveDevices => apply iff_of_true h trivial
  | saveRooms => apply iff_of_true h trivial

/-! ### Runs -/

/-- In a run of interleaved requests from two empty registries the rooms list registered
devices all the time just if each operation of the run finds it safe to go on. -/
theorem listsRegistered_iff_keepsListed
    (merge : Json → Json → Json) {s : Store} (hempty : s.memory = ⟨∅, ∅⟩)
    {acts : List (Act Request)} {p : Pool Store Request Op Bool Result}
    (hrun : Lts.run (next (Op.apply merge) Request.program) ⟨s, []⟩ acts = some p) :
  (∀ before u, before <+: acts →
      Lts.run (next (Op.apply merge) Request.program) ⟨s, []⟩ before = some u →
      ListsRegistered u.shared.memory)
    ↔ Lts.Guarded (next (Op.apply merge) Request.program)
      (Allows fun s => KeepsListed s.memory) ⟨s, []⟩ acts
  := by
  apply Lts.forall_run_iff_guarded (I := AllCall AddsBare)
    (P := fun u => ListsRegistered u.shared.memory) _ _ _ _ hrun
  · apply List.forall_mem_nil
  · intro roomId room hroom
    rw [hempty] at hroom
    cases hroom
  · intro t a u ht hstep
    apply ht.next calls_addsBare hstep
  · intro t a u hI ht hstep
    cases a with
    | start q =>
        obtain rfl := Interleaving.next_start.mp hstep
        apply iff_of_true ht trivial
    | step i =>
        obtain ⟨q, op, k, hi, rfl⟩ := Interleaving.next_step.mp hstep
        rw [listsRegistered_apply_iff ht (hI _ (List.mem_of_getElem? hi)).1]
        simp [Allows, hi]

/-- A device is registered and put into a room. -/
def inRoomActs : List (Act Request) :=
  [.start (.deviceAdd (Bytes.ofAscii "d1") (Bytes.ofAscii "Lamp") (Bytes.ofAscii "light")),
    .step 0, .step 0, .start (.roomAdd (Bytes.ofAscii "r1") (Bytes.ofAscii "Hall")), .step 1,
    .step 1, .start (.roomAddDevice (Bytes.ofAscii "r1") (Bytes.ofAscii "d1")), .step 2, .step 2,
    .step 2, .step 2]

/-- The device is taken out of the room before it is removed. -/
theorem listsRegistered_iff_keepsListed_inRoomActs :
  ∃ p, Lts.run (next (Op.apply fun _ patch => patch) Request.program) ⟨⟨⟨∅, ∅⟩, ⟨∅, ∅⟩⟩, []⟩
      (inRoomActs ++
        [.start (.roomRemoveDevice (Bytes.ofAscii "r1") (Bytes.ofAscii "d1")), .step 3, .step 3,
          .step 3, .start (.deviceRemove (Bytes.ofAscii "d1")), .step 4, .step 4, .step 4])
        = some p
    ∧ ListsRegistered p.shared.memory
  := by
  obtain ⟨p, hp⟩ : ∃ p, Lts.run (next (Op.apply fun _ patch => patch) Request.program)
      ⟨⟨⟨∅, ∅⟩, ⟨∅, ∅⟩⟩, []⟩
      (inRoomActs ++
        [.start (.roomRemoveDevice (Bytes.ofAscii "r1") (Bytes.ofAscii "d1")), .step 3, .step 3,
          .step 3, .start (.deviceRemove (Bytes.ofAscii "d1")), .step 4, .step 4, .step 4])
        = some p := ⟨_, rfl⟩
  use p, hp
  apply (listsRegistered_iff_keepsListed _ rfl hp).mpr _ _ p List.prefix_rfl hp
  decide +kernel

/-- The device is removed, and the room still lists it. -/
theorem not_listsRegistered :
  ¬ ∀ (merge : Json → Json → Json) (s : Store) (acts : List (Act Request))
    (p : Pool Store Request Op Bool Result), s.memory = ⟨∅, ∅⟩ →
    Lts.run (next (Op.apply merge) Request.program) ⟨s, []⟩ acts = some p →
    ListsRegistered p.shared.memory
  := by
  intro h
  have hlists := h (fun _ patch => patch) ⟨⟨∅, ∅⟩, ⟨∅, ∅⟩⟩
    (inRoomActs ++ [.start (.deviceRemove (Bytes.ofAscii "d1")), .step 3, .step 3, .step 3]) _
    rfl rfl
  have hmem := hlists (Bytes.ofAscii "r1")
    ⟨Bytes.ofAscii "r1", Bytes.ofAscii "Hall", [Bytes.ofAscii "d1"]⟩ (by decide +kernel)
    (Bytes.ofAscii "d1") (List.mem_singleton_self _)
  revert hmem
  decide +kernel

end NexusMainframe
