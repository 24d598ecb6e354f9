import NexusMainframe.Lib.Delayed
import NexusMainframe.Services.Requests
import Mathlib.Algebra.Order.Group.Multiset
import Mathlib.Tactic.Abel

/-!
# Interleaved requests in sequence

A request checks what it needs and acts on it later, when it may not be so any more. Where no
request removes a device or a room that is gone, or changes the devices of a room that is
gone, the results and the registries are those of the requests in some sequence.

The sequence is found along the run. What a request removes is kept in it to the end or until
it is added again, so that it is still there for the requests that have seen it; the requests
that miss it go in between, after the removals.
-/

namespace NexusMainframe

open Interleaving (Prog Thread Pool Act Idle Allows exec next outcome outcomes Serves Visits)

variable (merge : Json → Json → Json)

/-- A device or room that is removed is there, and so is a room whose devices are changed. -/
def Finds (s : Registries) : Op → Prop
  | .devices (.remove id) => id ∈ s.devices
  | .rooms (.remove id) => id ∈ s.rooms
  | .rooms (.addDevice roomId _) => roomId ∈ s.rooms
  | .rooms (.removeDevice roomId _) => roomId ∈ s.rooms
  | _ => True

instance decidableFinds (s : Registries) : ∀ op, Decidable (Finds s op)
  | .devices (.remove id) => inferInstanceAs (Decidable (id ∈ s.devices))
  | .rooms (.remove id) => inferInstanceAs (Decidable (id ∈ s.rooms))
  | .rooms (.addDevice roomId _) | .rooms (.removeDevice roomId _) =>
      inferInstanceAs (Decidable (roomId ∈ s.rooms))
  | .devices (.add _) | .devices (.exists' _) | .devices (.updateState _ _) => isTrue trivial
  | .rooms (.add _) | .rooms (.exists' _) => isTrue trivial
  | .saveDevices | .saveRooms => isTrue trivial

/-- Programs that run one after the other have the results of the requests that are done, and
lead to the registries. -/
def Serializable (s : Store) (p : Pool Store Request Op Bool Result) : Prop :=
  ∃ xs t, xs.Perm (outcomes p)
    ∧ Serves (fun q => exec (Op.apply merge) (Request.program q)) s xs t
    ∧ t.memory = p.shared.memory

/-! ### What a request misses -/

/-- What a request can miss: a device, a room, or a device to put into a room. -/
inductive Lack
  | device (id : Bytes)
  | room (id : Bytes)
  | deviceOf (roomId id : Bytes)

/-- It is missing. -/
def Lack.Holds (s : Registries) : Lack → Prop
  | .device id => id ∉ s.devices
  | .room id => id ∉ s.rooms
  | .deviceOf roomId id => roomId ∈ s.rooms ∧ id ∉ s.devices

/-- Where it is missed, the request has no effect and this result. -/
def Lack.Explains (k : Lack) (x : Request × Result) : Prop :=
  ∀ s, k.Holds s → serve merge x.1 s = (s, x.2)

/-- It is missed in `now`, or between the removals that lead there from `later`. -/
def Lack.Pending (now later : Registries) : Lack → Prop
  | .device id => id ∉ now.devices
  | .room id => id ∉ now.rooms
  | .deviceOf roomId id => roomId ∈ later.rooms ∧ id ∉ now.devices

/-! ### The sequence -/

/-- Removals of devices, each with its result. -/
def deviceRemovals (ids : List Bytes) : List (Request × Result) :=
  ids.map fun id => (.deviceRemove id, DeviceService.removed id)

/-- Removals of rooms, each with its result. -/
def roomRemovals (ids : List Bytes) : List (Request × Result) :=
  ids.map fun id => (.roomRemove id, RoomService.removed id)

/-- The requests `xs` in sequence: `done` lead from `start` to `later`, the removals of `ds`
and `rs` from there to `now`, and `missing` have missed something. -/
structure Sequence (start now later : Registries) (xs : Multiset (Request × Result))
    (done missing : List (Request × Result)) (ds rs : List Bytes) : Prop where
  serves : Serves (serve merge) start done later
  devices : Delayed now.devices later.devices ds
  rooms : Delayed now.rooms later.rooms rs
  misses : ∀ x ∈ missing, ∃ k : Lack, k.Explains merge x
    ∧ (k.Pending now later ∨ ∃ s, Visits (serve merge) start done s ∧ k.Holds s)
  total : (done : Multiset (Request × Result)) + deviceRemovals ds + roomRemovals rs + missing
    = xs

variable {merge} {start now later now' later' : Registries}
  {xs : Multiset (Request × Result)} {done missing ys : List (Request × Result)}
  {ds rs ds' rs' : List Bytes} {x : Request × Result}

theorem Sequence.init (s : Registries) : Sequence merge s s s 0 [] [] [] [] := by
  constructor
  · rfl
  · apply Delayed.refl
  · apply Delayed.refl
  · apply List.forall_mem_nil
  · rfl

/-- Requests are appended, and removals are kept back or not any more. -/
theorem Sequence.append
    (h : Sequence merge start now later xs done missing ds rs)
    (hys : Serves (serve merge) later ys later')
    (hdevices : Delayed now'.devices later'.devices ds')
    (hrooms : Delayed now'.rooms later'.rooms rs')
    (hk : ∀ k : Lack, k.Pending now later →
      k.Pending now' later' ∨ ∃ s, Visits (serve merge) later ys s ∧ k.Holds s)
    (htotal : (ys : Multiset (Request × Result)) + deviceRemovals ds' + roomRemovals rs'
      = x ::ₘ (deviceRemovals ds + roomRemovals rs)) :
  Sequence merge start now' later' (x ::ₘ xs) (done ++ ys) missing ds' rs'
  := by
  constructor
  · apply h.serves.append hys
  · apply hdevices
  · apply hrooms
  · intro y hy
    obtain ⟨k, hexplains, hpending | ⟨s, hs, hholds⟩⟩ := h.misses y hy
    · use k, hexplains
      rcases hk k hpending with hpending | ⟨s, hs, hholds⟩
      · left
        apply hpending
      · right
        use s, h.serves.visits_append hs
    · use k, hexplains
      right
      use s, hs.append ys
  · rw [← h.total, ← Multiset.coe_add]
    calc
      (done : Multiset (Request × Result)) + ys + deviceRemovals ds' + roomRemovals rs' + missing
        = done + (ys + deviceRemovals ds' + roomRemovals rs') + missing := by abel
      _ = done + (x ::ₘ (deviceRemovals ds + roomRemovals rs)) + missing := by rw [htotal]
      _ = x ::ₘ (done + deviceRemovals ds + roomRemovals rs + missing) := by
        rw [← Multiset.singleton_add, ← Multiset.singleton_add]
        abel

/-- A request that misses something. -/
theorem Sequence.miss
    (h : Sequence merge start now later xs done missing ds rs) {k : Lack}
    (hx : k.Explains merge x) (hk : k.Pending now later) :
  Sequence merge start now later (x ::ₘ xs) done (x :: missing) ds rs
  := by
  constructor
  · apply h.serves
  · apply h.devices
  · apply h.rooms
  · intro y hy
    rcases List.mem_cons.mp hy with rfl | hy
    · use k, hx
      left
      apply hk
    · apply h.misses y hy
  · rw [← h.total, ← Multiset.cons_coe, Multiset.add_cons]

theorem erases_device (rooms : RoomRegistry) :
  Delayed.Erases (serve merge) (fun devices => ⟨devices, rooms⟩)
    fun id => (.deviceRemove id, DeviceService.removed id)
  := by
  intro devices id hid
  obtain ⟨d, hd⟩ := Finmap.mem_iff.mp hid
  simp [serve, hd]

theorem erases_room (devices : DeviceRegistry) :
  Delayed.Erases (serve merge) (fun rooms => ⟨devices, rooms⟩)
    fun id => (.roomRemove id, RoomService.removed id)
  := by
  intro rooms id hid
  obtain ⟨room, hroom⟩ := Finmap.mem_iff.mp hid
  simp [serve, hroom]

/-- The requests can be served one after the other. -/
theorem Sequence.exists_serves (h : Sequence merge start now later xs done missing ds rs) :
  ∃ zs : List (Request × Result), (zs : Multiset (Request × Result)) = xs
    ∧ Serves (serve merge) start zs now
  := by
  have hd : Serves (serve merge) later (deviceRemovals ds) ⟨now.devices, later.rooms⟩ :=
    h.devices.serves (erases_device later.rooms)
  have hr : Serves (serve merge) ⟨now.devices, later.rooms⟩ (roomRemovals rs) now :=
    h.rooms.serves (erases_room now.devices)
  have hmiddle := h.serves.append hd
  have hserves := hmiddle.append hr
  have hmisses : ∀ y ∈ missing, ∃ s,
      Visits (serve merge) start (done ++ deviceRemovals ds ++ roomRemovals rs) s
        ∧ serve merge y.1 s = (s, y.2) := by
    intro y hy
    obtain ⟨k, hexplains, hpending | ⟨s, hs, hholds⟩⟩ := h.misses y hy
    · cases k with
      | device id => use now, hserves.visits, hexplains now hpending
      | room id => use now, hserves.visits, hexplains now hpending
      | deviceOf roomId id =>
          use ⟨now.devices, later.rooms⟩, hmiddle.visits.append _, hexplains _ hpending
    · use s, (hs.append _).append _, hexplains s hholds
  obtain ⟨zs, hperm, hzs⟩ := hserves.insertAll hmisses
  use zs
  constructor
  · rw [← h.total, Multiset.coe_eq_coe.mpr hperm]
    simp only [← Multiset.coe_add]
  · apply hzs

/-- All ids that are there are there in the other registries. -/
def Extends (s t : Registries) : Prop :=
  (∀ id ∈ s.devices, id ∈ t.devices) ∧ ∀ id ∈ s.rooms, id ∈ t.rooms

theorem Extends.refl (s : Registries) : Extends s s :=
  ⟨fun _ h => h, fun _ h => h⟩

theorem Extends.insertDevice (s : Registries) (id : Bytes) (d : Device) :
  Extends s ⟨s.devices.insert id d, s.rooms⟩
  := ⟨fun _ h => Finmap.mem_insert.mpr (Or.inr h), fun _ h => h⟩

theorem Extends.insertRoom (s : Registries) (id : Bytes) (room : Room) :
  Extends s ⟨s.devices, s.rooms.insert id room⟩
  := ⟨fun _ h => h, fun _ h => Finmap.mem_insert.mpr (Or.inr h)⟩

/-- A device that is changed is no new one. -/
theorem Extends.of_insertDevice {s : Registries} {id : Bytes} (h : id ∈ s.devices) (d : Device) :
  Extends ⟨s.devices.insert id d, s.rooms⟩ s
  := by
  constructor
  · intro id' hid'
    rcases Finmap.mem_insert.mp hid' with rfl | hid'
    · apply h
    · apply hid'
  · exact fun _ h => h

theorem Extends.of_insertRoom {s : Registries} {id : Bytes} (h : id ∈ s.rooms) (room : Room) :
  Extends ⟨s.devices, s.rooms.insert id room⟩ s
  := by
  constructor
  · exact fun _ h => h
  · intro id' hid'
    rcases Finmap.mem_insert.mp hid' with rfl | hid'
    · apply h
    · apply hid'

/-! ### Requests that are decided -/

/-- A request is served while nothing is removed or new. -/
theorem Sequence.serveOne
    (h : Sequence merge start now later xs done missing ds rs) {q : Request} {result : Result}
    (hserve : serve merge q later = (later', result))
    (hdevices : Delayed now'.devices later'.devices ds)
    (hrooms : Delayed now'.rooms later'.rooms rs)
    (hnow : Extends now' now) (hlater : Extends later later') :
  Sequence merge start now' later' ((q, result) ::ₘ xs) (done ++ [(q, result)]) missing ds rs
  := by
  apply h.append (Interleaving.serves_single.mpr hserve) hdevices hrooms
  · intro k hk
    left
    cases k with
    | device id => apply fun hid => hk (hnow.1 id hid)
    | room id => apply fun hid => hk (hnow.2 id hid)
    | deviceOf roomId id => use hlater.2 roomId hk.1, fun hid => hk.2 (hnow.1 id hid)
  · rw [add_assoc]
    rfl

theorem Sequence.removeDevice
    (h : Sequence merge start now later xs done missing ds rs) {id : Bytes}
    (hid : id ∈ now.devices) :
  Sequence merge start ⟨now.devices.erase id, now.rooms⟩ later
    ((.deviceRemove id, DeviceService.removed id) ::ₘ xs) (done ++ []) missing (ds ++ [id]) rs
  := by
  have herase : ∀ id' ∈ now.devices.erase id, id' ∈ now.devices := fun id' hid' =>
    (Finmap.mem_erase.mp hid').2
  have hnil : Serves (serve merge) later [] later := rfl
  apply h.append hnil
  · apply h.devices.erase hid
  · apply h.rooms
  · intro k hk
    left
    cases k with
    | device id' => apply fun hid' => hk (herase id' hid')
    | room id' => apply hk
    | deviceOf roomId id' => use hk.1, fun hid' => hk.2 (herase id' hid')
  · rw [deviceRemovals, List.map_append, ← Multiset.coe_add, ← Multiset.singleton_add]
    change 0 + (_ + {_}) + _ = _
    rw [deviceRemovals]
    abel

theorem Sequence.removeRoom
    (h : Sequence merge start now later xs done missing ds rs) {id : Bytes}
    (hid : id ∈ now.rooms) :
  Sequence merge start ⟨now.devices, now.rooms.erase id⟩ later
    ((.roomRemove id, RoomService.removed id) ::ₘ xs) (done ++ []) missing ds (rs ++ [id])
  := by
  have hnil : Serves (serve merge) later [] later := rfl
  apply h.append hnil
  · apply h.devices
  · apply h.rooms.erase hid
  · intro k hk
    left
    cases k with
    | device id' => apply hk
    | room id' => apply fun hid' => hk (Finmap.mem_erase.mp hid').2
    | deviceOf roomId id' => apply hk
  · rw [roomRemovals, List.map_append, ← Multiset.coe_add, ← Multiset.singleton_add]
    change 0 + _ + (_ + {_}) = _
    rw [roomRemovals]
    abel

/-- Removals that are not kept back any more, and a request behind them. -/
theorem coe_concat_add {zs kept all : List (Request × Result)} (h : (zs ++ kept).Perm all) :
  ((zs ++ [x] : List (Request × Result)) : Multiset (Request × Result)) + kept = x ::ₘ all
  := by
  have hall : (zs : Multiset (Request × Result)) + kept = all := Multiset.coe_eq_coe.mpr h
  rw [← hall, ← Multiset.coe_add, Multiset.coe_singleton, ← Multiset.singleton_add]
  abel

theorem Sequence.addDevice
    (h : Sequence merge start now later xs done missing ds rs) {id : Bytes}
    (hid : id ∉ now.devices) {name type : Bytes} (hname : (name.isEmpty || type.isEmpty) = false) :
  ∃ zs, Sequence merge start
    ⟨now.devices.insert id (DeviceService.device id name type), now.rooms⟩
    ⟨later.devices.insert id (DeviceService.device id name type), later.rooms⟩
    ((.deviceAdd id name type, DeviceService.registered id) ::ₘ xs) (done ++ zs) missing
    (ds.erase id) rs
  := by
  obtain ⟨zs, devices, hserves, hnotMem, hinsert, hperm⟩ :=
    h.devices.exists_serves_notMem (erases_device later.rooms) hid
  have hadd : Serves (serve merge) ⟨devices, later.rooms⟩
      [(.deviceAdd id name type, DeviceService.registered id)]
      ⟨later.devices.insert id (DeviceService.device id name type), later.rooms⟩ := by
    apply Interleaving.serves_single.mpr
    simp [serve, hname, Finmap.lookup_eq_none.mpr hnotMem, hinsert]
  use zs ++ [(.deviceAdd id name type, DeviceService.registered id)]
  apply h.append (hserves.append hadd)
  · apply h.devices.insert_new
  · apply h.rooms
  · intro k hk
    cases k with
    | device id' =>
        by_cases heq : id' = id
        · right
          subst heq
          use ⟨devices, later.rooms⟩, hserves.visits.append _, hnotMem
        · left
          apply FiniteMap.notMem_insert hk heq
    | room id' =>
        left
        apply hk
    | deviceOf roomId id' =>
        by_cases heq : id' = id
        · right
          subst heq
          use ⟨devices, later.rooms⟩, hserves.visits.append _, hk.1, hnotMem
        · left
          use hk.1, FiniteMap.notMem_insert hk.2 heq _
  · have hperm : (zs ++ deviceRemovals (ds.erase id)).Perm (deviceRemovals ds) := hperm
    rw [coe_concat_add hperm, Multiset.cons_add]

theorem Sequence.addRoom
    (h : Sequence merge start now later xs done missing ds rs) {id : Bytes}
    (hid : id ∉ now.rooms) {name : Bytes} (hname : name.isEmpty = false) :
  ∃ zs, Sequence merge start ⟨now.devices, now.rooms.insert id (RoomService.room id name)⟩
    ⟨later.devices, later.rooms.insert id (RoomService.room id name)⟩
    ((.roomAdd id name, RoomService.created id) ::ₘ xs) (done ++ zs) missing ds (rs.erase id)
  := by
  obtain ⟨zs, rooms, hserves, hnotMem, hinsert, hperm⟩ :=
    h.rooms.exists_serves_notMem (erases_room later.devices) hid
  have hadd : Serves (serve merge) ⟨later.devices, rooms⟩
      [(.roomAdd id name, RoomService.created id)]
      ⟨later.devices, later.rooms.insert id (RoomService.room id name)⟩ := by
    apply Interleaving.serves_single.mpr
    simp [serve, hname, Finmap.lookup_eq_none.mpr hnotMem, hinsert]
  use zs ++ [(.roomAdd id name, RoomService.created id)]
  apply h.append (hserves.append hadd)
  · apply h.devices
  · apply h.rooms.insert_new
  · intro k hk
    cases k with
    | device id' =>
        left
        apply hk
    | room id' =>
        by_cases heq : id' = id
        · right
          subst heq
          use ⟨later.devices, rooms⟩, hserves.visits.append _, hnotMem
        · left
          apply FiniteMap.notMem_insert hk heq
    | deviceOf roomId id' =>
        left
        use Finmap.mem_insert.mpr (Or.inr hk.1), hk.2
  · have hperm : (zs ++ roomRemovals (rs.erase id)).Perm (roomRemovals rs) := hperm
    rw [add_right_comm, coe_concat_add hperm, Multiset.cons_add, add_comm]

/-! ### Requests in flight -/

/-- The result of a program that has nothing left to do but to save. -/
def decided : Prog Op Bool Result → Option Result
  | .done result => some result
  | .call .saveDevices k => decided (k true)
  | .call .saveRooms k => decided (k true)
  | .call (.devices _) _ | .call (.rooms _) _ => none

/-- The request and its result, once the program has decided on it. -/
def decision (t : Thread Request Op Bool Result) : Option (Request × Result) :=
  (decided t.rest).map fun result => (t.request, result)

/-- Where the program of a request can be, and what it has seen then. -/
inductive Waiting (later : Registries) : Request → Prog Op Bool Result → Prop
  | start (q : Request) : Waiting later q q.program
  | deviceRemove (id : Bytes) :
      Waiting later (.deviceRemove id)
        (.call (.devices (.remove id)) fun _ =>
          .call .saveDevices fun _ => .done (DeviceService.removed id))
  | deviceCommand (id : Bytes) (payload : Json) (h : id ∈ later.devices) :
      Waiting later (.deviceCommand id payload)
        (.call (.devices (.updateState id payload)) fun _ =>
          .call .saveDevices fun _ => .done (DeviceService.applied id))
  | roomRemove (id : Bytes) :
      Waiting later (.roomRemove id)
        (.call (.rooms (.remove id)) fun _ =>
          .call .saveRooms fun _ => .done (RoomService.removed id))
  | roomAddDevice (roomId deviceId : Bytes) (h : roomId ∈ later.rooms) :
      Waiting later (.roomAddDevice roomId deviceId)
        (.call (.devices (.exists' deviceId)) fun found =>
          if !found then .done (DeviceService.notFound deviceId)
          else
            .call (.rooms (.addDevice roomId deviceId)) fun added =>
              if !added then .done RoomService.deviceAlready
              else .call .saveRooms fun _ => .done RoomService.deviceAdded)
  | roomAddDeviceFound (roomId deviceId : Bytes) (h : deviceId ∈ later.devices) :
      Waiting later (.roomAddDevice roomId deviceId)
        (.call (.rooms (.addDevice roomId deviceId)) fun added =>
          if !added then .done RoomService.deviceAlready
          else .call .saveRooms fun _ => .done RoomService.deviceAdded)
  | roomRemoveDevice (roomId deviceId : Bytes) :
      Waiting later (.roomRemoveDevice roomId deviceId)
        (.call (.rooms (.removeDevice roomId deviceId)) fun removed =>
          if !removed then .done RoomService.deviceNotIn
          else .call .saveRooms fun _ => .done RoomService.deviceRemoved)
  | decided (q : Request) {rest : Prog Op Bool Result} {result : Result}
      (h : decided rest = some result) : Waiting later q rest

theorem Waiting.extend
    {q : Request} {rest : Prog Op Bool Result} (h : Waiting later q rest)
    (hextends : Extends later later') :
  Waiting later' q rest
  := by
  cases h with
  | start q => apply Waiting.start
  | deviceRemove id => apply Waiting.deviceRemove
  | deviceCommand id payload h => apply Waiting.deviceCommand id payload (hextends.1 id h)
  | roomRemove id => apply Waiting.roomRemove
  | roomAddDevice roomId deviceId h =>
      apply Waiting.roomAddDevice roomId deviceId (hextends.2 roomId h)
  | roomAddDeviceFound roomId deviceId h =>
      apply Waiting.roomAddDeviceFound roomId deviceId (hextends.1 deviceId h)
  | roomRemoveDevice roomId deviceId => apply Waiting.roomRemoveDevice
  | decided q h => apply Waiting.decided q h

/-- The requests `xs` are in sequence, up to the registries `now`. -/
def Sequenced (merge : Json → Json → Json) (start now later : Registries)
    (xs : Multiset (Request × Result)) : Prop :=
  ∃ done missing ds rs, Sequence merge start now later xs done missing ds rs

/-- A step of a request: its result stays undecided or the same, or it is decided by the step
and the request is put in sequence. -/
def Advances (merge : Json → Json → Json) (start now' later : Registries)
    (xs : Multiset (Request × Result)) (q : Request) (rest rest' : Prog Op Bool Result) : Prop :=
  ∃ later', Extends later later' ∧ Waiting later' q rest'
    ∧ ((decided rest' = decided rest ∧ Sequenced merge start now' later' xs)
      ∨ ∃ result, decided rest = none ∧ decided rest' = some result
        ∧ Sequenced merge start now' later' ((q, result) ::ₘ xs))

/-- A step that does not decide. -/
theorem Sequence.goOn
    (h : Sequence merge start now later xs done missing ds rs) {q : Request}
    {rest rest' : Prog Op Bool Result} (hw : Waiting later q rest')
    (hdecided : decided rest' = decided rest) :
  Advances merge start now later xs q rest rest'
  := by
  use later, Extends.refl later, hw
  left
  use hdecided, done, missing, ds, rs

/-- A step that decides. -/
theorem Advances.decide
    {q : Request} {rest rest' : Prog Op Bool Result} {result : Result}
    (hextends : Extends later later') (hrest : decided rest = none)
    (hrest' : decided rest' = some result)
    (h : Sequence merge start now' later' ((q, result) ::ₘ xs) done missing ds rs) :
  Advances merge start now' later xs q rest rest'
  := by
  use later', hextends, Waiting.decided q hrest'
  right
  use result, hrest, hrest', done, missing, ds, rs

/-- A request is served as it would be later, and has no effect. -/
theorem Sequence.decideSame
    (h : Sequence merge start now later xs done missing ds rs) {q : Request} {result : Result}
    {rest rest' : Prog Op Bool Result} (hserve : serve merge q later = (later, result))
    (hrest : decided rest = none) (hrest' : decided rest' = some result) :
  Advances merge start now later xs q rest rest'
  := by
  apply Advances.decide (Extends.refl later) hrest hrest'
  apply h.serveOne hserve h.devices h.rooms (Extends.refl now) (Extends.refl later)

/-- A room that is there is changed. -/
theorem Sequence.decideRoom
    (h : Sequence merge start now later xs done missing ds rs) {id : Bytes} {room : Room}
    {q : Request} {result : Result} {rest rest' : Prog Op Bool Result} (hid : id ∈ now.rooms)
    (hserve : serve merge q later = (⟨later.devices, later.rooms.insert id room⟩, result))
    (hrest : decided rest = none) (hrest' : decided rest' = some result) :
  Advances merge start ⟨now.devices, now.rooms.insert id room⟩ later xs q rest rest'
  := by
  apply Advances.decide (Extends.insertRoom later id room) hrest hrest'
  apply h.serveOne hserve
  · apply h.devices
  · apply h.rooms.insert hid
  · apply Extends.of_insertRoom hid
  · apply Extends.insertRoom

/-- A check of what the request goes on to act on. -/
theorem Sequence.check
    (h : Sequence merge start now later xs done missing ds rs) {found : Bool} {q : Request}
    {result : Result} {rest y : Prog Op Bool Result} (hrest : decided rest = none)
    (hy : decided y = none)
    (hmiss : found = false → ∃ k : Lack, k.Explains merge (q, result) ∧ k.Pending now later)
    (hfound : found = true → Waiting later q y) :
  Advances merge start now later xs q rest (if !found then .done result else y)
  := by
  cases found with
  | false =>
      obtain ⟨k, hx, hk⟩ := hmiss rfl
      apply Advances.decide (Extends.refl later) hrest rfl (h.miss hx hk)
  | true => apply h.goOn (hfound rfl) (hy.trans hrest.symm)

theorem Sequence.checkDevice
    (h : Sequence merge start now later xs done missing ds rs) {id : Bytes} {q : Request}
    {result : Result} {rest y : Prog Op Bool Result} (hrest : decided rest = none)
    (hy : decided y = none)
    (hmiss : id ∉ now.devices → ∃ k : Lack, k.Explains merge (q, result) ∧ k.Pending now later)
    (hfound : id ∈ later.devices → Waiting later q y) :
  Advances merge start now later xs q rest
    (if !(now.devices.lookup id).isSome then .done result else y)
  := by
  apply h.check hrest hy
  · intro hnone
    apply hmiss (Finmap.lookup_isSome.not.mp (Bool.eq_false_iff.mp hnone))
  · intro hsome
    apply hfound (h.devices.mem_later (Finmap.lookup_isSome.mp hsome))

theorem Sequence.checkRoom
    (h : Sequence merge start now later xs done missing ds rs) {id : Bytes} {q : Request}
    {result : Result} {rest y : Prog Op Bool Result} (hrest : decided rest = none)
    (hy : decided y = none)
    (hmiss : id ∉ now.rooms → (Lack.room id).Explains merge (q, result))
    (hfound : id ∈ later.rooms → Waiting later q y) :
  Advances merge start now later xs q rest
    (if !(now.rooms.lookup id).isSome then .done result else y)
  := by
  apply h.check hrest hy
  · intro hnone
    have hid := Finmap.lookup_isSome.not.mp (Bool.eq_false_iff.mp hnone)
    use .room id, hmiss hid, hid
  · intro hsome
    apply hfound (h.rooms.mem_later (Finmap.lookup_isSome.mp hsome))

/-! ### Calls that decide -/

section Calls

variable {s : Store} (h : Sequence merge start s.memory later xs done missing ds rs)

include h

theorem Sequence.callDeviceAdd
    {id name type : Bytes} (hname : (name.isEmpty || type.isEmpty) = false)
    {rest : Prog Op Bool Result} (hrest : decided rest = none) :
  Advances merge start
    ((Op.devices (.add (DeviceService.device id name type))).apply merge s).1.memory later xs
    (.deviceAdd id name type) rest
    (if !((Op.devices (.add (DeviceService.device id name type))).apply merge s).2
      then .done DeviceService.conflict
      else .call .saveDevices fun _ => .done (DeviceService.registered id))
  := by
  cases hd : s.memory.devices.lookup id with
  | some d =>
      have hserve : serve merge (.deviceAdd id name type) later
          = (later, DeviceService.conflict) := by
        simp [serve, hname, h.devices.lookup_later hd]
      have happly : (Op.devices (.add (DeviceService.device id name type))).apply merge s
          = (s, false) := by
        simp [Op.apply, DeviceService.device, hd]
      rw [happly]
      apply h.decideSame hserve hrest rfl
  | none =>
      obtain ⟨zs, hnew⟩ := h.addDevice (Finmap.lookup_eq_none.mp hd) hname
      have happly : (Op.devices (.add (DeviceService.device id name type))).apply merge s
          = ({ s with
                memory :=
                  ⟨s.memory.devices.insert id (DeviceService.device id name type),
                    s.memory.rooms⟩ }, true) := by
        simp [Op.apply, DeviceService.device, hd]
      rw [happly]
      apply Advances.decide (Extends.insertDevice later id _) hrest rfl hnew

theorem Sequence.callDeviceRemove {id : Bytes} (hfinds : id ∈ s.memory.devices)
    {rest : Prog Op Bool Result} (hrest : decided rest = none) :
  Advances merge start ((Op.devices (.remove id)).apply merge s).1.memory later xs
    (.deviceRemove id) rest (.call .saveDevices fun _ => .done (DeviceService.removed id))
  := by
  obtain ⟨d, hd⟩ := Finmap.mem_iff.mp hfinds
  have happly : ((Op.devices (.remove id)).apply merge s).1.memory
      = ⟨s.memory.devices.erase id, s.memory.rooms⟩ := by
    simp [Op.apply, hd]
  rw [happly]
  apply Advances.decide (Extends.refl later) hrest rfl (h.removeDevice hfinds)

/-- A command for a device that was seen, and may be removed now. -/
theorem Sequence.callDeviceCommand {id : Bytes} {payload : Json} (hid : id ∈ later.devices)
    {rest : Prog Op Bool Result} (hrest : decided rest = none) :
  Advances merge start ((Op.devices (.updateState id payload)).apply merge s).1.memory later xs
    (.deviceCommand id payload) rest
    (.call .saveDevices fun _ => .done (DeviceService.applied id))
  := by
  obtain ⟨d, hd⟩ := Finmap.mem_iff.mp hid
  have hserve : serve merge (.deviceCommand id payload) later
      = (⟨later.devices.insert id { d with state := merge d.state payload }, later.rooms⟩,
        DeviceService.applied id) := by
    simp [serve, hd]
  have hextends := Extends.insertDevice later id { d with state := merge d.state payload }
  cases hnow : s.memory.devices.lookup id with
  | some d' =>
      obtain rfl := Option.some.inj ((h.devices.lookup_later hnow).symm.trans hd)
      have hmem : id ∈ s.memory.devices := Finmap.mem_iff.mpr ⟨d', hnow⟩
      have happly : ((Op.devices (.updateState id payload)).apply merge s).1.memory
          = ⟨s.memory.devices.insert id { d' with state := merge d'.state payload },
            s.memory.rooms⟩ := by
        simp [Op.apply, hnow]
      rw [happly]
      apply Advances.decide hextends hrest rfl
      apply h.serveOne hserve
      · apply h.devices.insert hmem
      · apply h.rooms
      · apply Extends.of_insertDevice hmem
      · apply hextends
  | none =>
      have hkeys := h.devices.mem_keys hid (Finmap.lookup_eq_none.mp hnow)
      have happly : ((Op.devices (.updateState id payload)).apply merge s).1.memory
          = s.memory := by
        simp [Op.apply, hnow]
      rw [happly]
      apply Advances.decide hextends hrest rfl
      apply h.serveOne hserve
      · apply h.devices.insert_later hkeys
      · apply h.rooms
      · apply Extends.refl
      · apply hextends

theorem Sequence.callRoomAdd
    {id name : Bytes} (hname : name.isEmpty = false) {rest : Prog Op Bool Result}
    (hrest : decided rest = none) :
  Advances merge start
    ((Op.rooms (.add (RoomService.room id name))).apply merge s).1.memory later xs
    (.roomAdd id name) rest
    (if !((Op.rooms (.add (RoomService.room id name))).apply merge s).2
      then .done RoomService.conflict
      else .call .saveRooms fun _ => .done (RoomService.created id))
  := by
  cases hroom : s.memory.rooms.lookup id with
  | some room =>
      have hserve : serve merge (.roomAdd id name) later = (later, RoomService.conflict) := by
        simp [serve, hname, h.rooms.lookup_later hroom]
      have happly : (Op.rooms (.add (RoomService.room id name))).apply merge s = (s, false) := by
        simp [Op.apply, RoomService.room, hroom]
      rw [happly]
      apply h.decideSame hserve hrest rfl
  | none =>
      obtain ⟨zs, hnew⟩ := h.addRoom (Finmap.lookup_eq_none.mp hroom) hname
      have happly : (Op.rooms (.add (RoomService.room id name))).apply merge s
          = ({ s with
                memory :=
                  ⟨s.memory.devices,
                    s.memory.rooms.insert id (RoomService.room id name)⟩ }, true) := by
        simp [Op.apply, RoomService.room, hroom]
      rw [happly]
      apply Advances.decide (Extends.insertRoom later id _) hrest rfl hnew

theorem Sequence.callRoomRemove {id : Bytes} (hfinds : id ∈ s.memory.rooms)
    {rest : Prog Op Bool Result} (hrest : decided rest = none) :
  Advances merge start ((Op.rooms (.remove id)).apply merge s).1.memory later xs
    (.roomRemove id) rest (.call .saveRooms fun _ => .done (RoomService.removed id))
  := by
  obtain ⟨room, hroom⟩ := Finmap.mem_iff.mp hfinds
  have happly : ((Op.rooms (.remove id)).apply merge s).1.memory
      = ⟨s.memory.devices, s.memory.rooms.erase id⟩ := by
    simp [Op.apply, hroom]
  rw [happly]
  apply Advances.decide (Extends.refl later) hrest rfl (h.removeRoom hfinds)

/-- A device that was seen, and may be removed now, is put into a room that is there. -/
theorem Sequence.callRoomAddDevice
    {roomId deviceId : Bytes} (hid : deviceId ∈ later.devices)
    (hfinds : roomId ∈ s.memory.rooms) {rest : Prog Op Bool Result}
    (hrest : decided rest = none) :
  Advances merge start ((Op.rooms (.addDevice roomId deviceId)).apply merge s).1.memory later xs
    (.roomAddDevice roomId deviceId) rest
    (if !((Op.rooms (.addDevice roomId deviceId)).apply merge s).2
      then .done RoomService.deviceAlready
      else .call .saveRooms fun _ => .done RoomService.deviceAdded)
  := by
  obtain ⟨room, hroom⟩ := Finmap.mem_iff.mp hfinds
  obtain ⟨d, hd⟩ := Finmap.mem_iff.mp hid
  have hlater := h.rooms.lookup_later hroom
  by_cases hmem : deviceId ∈ room.deviceIds
  · have hserve : serve merge (.roomAddDevice roomId deviceId) later
        = (later, RoomService.deviceAlready) := by
      simp [serve, hlater, hd, hmem]
    have happly : (Op.rooms (.addDevice roomId deviceId)).apply merge s = (s, false) := by
      simp [Op.apply, hroom, hmem]
    rw [happly]
    apply h.decideSame hserve hrest rfl
  · have hserve : serve merge (.roomAddDevice roomId deviceId) later
        = (⟨later.devices,
            later.rooms.insert roomId { room with deviceIds := room.deviceIds ++ [deviceId] }⟩,
          RoomService.deviceAdded) := by
      simp [serve, hlater, hd, hmem]
    have happly : (Op.rooms (.addDevice roomId deviceId)).apply merge s
        = ({ s with
              memory :=
                ⟨s.memory.devices,
                  s.memory.rooms.insert roomId
                    { room with deviceIds := room.deviceIds ++ [deviceId] }⟩ }, true) := by
      simp [Op.apply, hroom, hmem]
    rw [happly]
    apply h.decideRoom hfinds hserve hrest rfl

theorem Sequence.callRoomRemoveDevice
    {roomId deviceId : Bytes} (hfinds : roomId ∈ s.memory.rooms) {rest : Prog Op Bool Result}
    (hrest : decided rest = none) :
  Advances merge start ((Op.rooms (.removeDevice roomId deviceId)).apply merge s).1.memory later
    xs (.roomRemoveDevice roomId deviceId) rest
    (if !((Op.rooms (.removeDevice roomId deviceId)).apply merge s).2
      then .done RoomService.deviceNotIn
      else .call .saveRooms fun _ => .done RoomService.deviceRemoved)
  := by
  obtain ⟨room, hroom⟩ := Finmap.mem_iff.mp hfinds
  have hlater := h.rooms.lookup_later hroom
  by_cases hmem : deviceId ∈ room.deviceIds
  · have hserve : serve merge (.roomRemoveDevice roomId deviceId) later
        = (⟨later.devices,
            later.rooms.insert roomId
              { room with deviceIds := room.deviceIds.erase deviceId }⟩,
          RoomService.deviceRemoved) := by
      simp [serve, hlater, hmem]
    have happly : (Op.rooms (.removeDevice roomId deviceId)).apply merge s
        = ({ s with
              memory :=
                ⟨s.memory.devices,
                  s.memory.rooms.insert roomId
                    { room with deviceIds := room.deviceIds.erase deviceId }⟩ }, true) := by
      simp [Op.apply, hroom, hmem]
    rw [happly]
    apply h.decideRoom hfinds hserve hrest rfl
  · have hserve : serve merge (.roomRemoveDevice roomId deviceId) later
        = (later, RoomService.deviceNotIn) := by
      simp [serve, hlater, hmem]
    have happly : (Op.rooms (.removeDevice roomId deviceId)).apply merge s = (s, false) := by
      simp [Op.apply, hroom, hmem]
    rw [happly]
    apply h.decideSame hserve hrest rfl

/-- A call of an operation takes its request on. -/
theorem Sequence.advances
    {q : Request} {op : Op} {k : Bool → Prog Op Bool Result} (hw : Waiting later q (.call op k))
    (hfinds : Finds s.memory op) :
  Advances merge start (op.apply merge s).1.memory later xs q (.call op k)
    (k (op.apply merge s).2)
  := by
  generalize hrest : Prog.call op k = rest at hw
  cases hw with
  | start q =>
      cases q with
      | deviceAdd id name type =>
          simp only [Request.program, DeviceService.add] at hrest
          split at hrest
          next => cases hrest
          next hname =>
            cases hrest
            apply h.callDeviceAdd (Bool.eq_false_iff.mpr hname)
            simp [Request.program, DeviceService.add, hname, NexusMainframe.decided]
      | deviceRemove id =>
          cases hrest
          simp only [Op.apply, DeviceOp.apply_exists']
          apply h.checkDevice rfl rfl _ fun _ => Waiting.deviceRemove id
          intro hid
          refine ⟨.device id, ?_, hid⟩
          intro s hs
          simp [serve, Finmap.lookup_eq_none.mpr hs]
      | deviceCommand id payload =>
          cases hrest
          simp only [Op.apply, DeviceOp.apply_exists']
          apply h.checkDevice rfl rfl _ (Waiting.deviceCommand id payload)
          intro hid
          refine ⟨.device id, ?_, hid⟩
          intro s hs
          simp [serve, Finmap.lookup_eq_none.mpr hs]
      | roomAdd id name =>
          simp only [Request.program, RoomService.add] at hrest
          split at hrest
          next => cases hrest
          next hname =>
            cases hrest
            apply h.callRoomAdd (Bool.eq_false_iff.mpr hname)
            simp [Request.program, RoomService.add, hname, NexusMainframe.decided]
      | roomRemove id =>
          cases hrest
          simp only [Op.apply, RoomOp.apply_exists']
          apply h.checkRoom rfl rfl _ fun _ => Waiting.roomRemove id
          intro _ s hs
          simp [serve, Finmap.lookup_eq_none.mpr hs]
      | roomAddDevice roomId deviceId =>
          cases hrest
          simp only [Op.apply, RoomOp.apply_exists']
          apply h.checkRoom rfl rfl _ (Waiting.roomAddDevice roomId deviceId)
          intro _ s hs
          simp [serve, Finmap.lookup_eq_none.mpr hs]
      | roomRemoveDevice roomId deviceId =>
          cases hrest
          simp only [Op.apply, RoomOp.apply_exists']
          apply h.checkRoom rfl rfl _ fun _ => Waiting.roomRemoveDevice roomId deviceId
          intro _ s hs
          simp [serve, Finmap.lookup_eq_none.mpr hs]
  | deviceRemove id =>
      cases hrest
      apply h.callDeviceRemove hfinds rfl
  | deviceCommand id payload hid =>
      cases hrest
      apply h.callDeviceCommand hid rfl
  | roomRemove id =>
      cases hrest
      apply h.callRoomRemove hfinds rfl
  | roomAddDevice roomId deviceId hroom =>
      cases hrest
      simp only [Op.apply, DeviceOp.apply_exists']
      apply h.checkDevice rfl rfl _ (Waiting.roomAddDeviceFound roomId deviceId)
      intro hid
      refine ⟨.deviceOf roomId deviceId, ?_, hroom, hid⟩
      rintro s ⟨hs, hs'⟩
      obtain ⟨room, hroom⟩ := Finmap.mem_iff.mp hs
      simp [serve, hroom, Finmap.lookup_eq_none.mpr hs']
  | roomAddDeviceFound roomId deviceId hid =>
      cases hrest
      apply h.callRoomAddDevice hid hfinds rfl
  | roomRemoveDevice roomId deviceId =>
      cases hrest
      apply h.callRoomRemoveDevice hfinds rfl
  | decided q hdecided =>
      subst hrest
      cases op with
      | saveDevices => exact h.goOn (Waiting.decided q hdecided) rfl
      | saveRooms => exact h.goOn (Waiting.decided q hdecided) rfl
      | devices op => cases hdecided
      | rooms op => cases hdecided

end Calls

/-! ### Runs -/

/-- The decided requests are in sequence, and the others wait. -/
def InSequence (merge : Json → Json → Json) (start : Registries)
    (p : Pool Store Request Op Bool Result) : Prop :=
  ∃ later, Sequenced merge start p.shared.memory later (p.threads.filterMap decision)
    ∧ ∀ t ∈ p.threads, Waiting later t.request t.rest

/-- A program that is decided before it has called anything. -/
theorem serve_of_decided_program
    {q : Request} {result : Result} (h : decided q.program = some result) (s : Registries) :
  serve merge q s = (s, result)
  := by
  cases q with
  | deviceAdd id name type =>
      simp only [Request.program, DeviceService.add, serve] at h ⊢
      split at h
      next hname =>
        cases h
        rw [if_pos hname]
      next => cases h
  | roomAdd id name =>
      simp only [Request.program, RoomService.add, serve] at h ⊢
      split at h
      next hname =>
        cases h
        rw [if_pos hname]
      next => cases h
  | _ => cases h

variable {p u : Pool Store Request Op Bool Result}

theorem InSequence.arrive
    (h : InSequence merge start p) {q : Request}
    (hstart : next (Op.apply merge) Request.program p (.start q) = some u) :
  InSequence merge start u
  := by
  obtain rfl := Interleaving.next_start.mp hstart
  obtain ⟨later, ⟨done, missing, ds, rs, hseq⟩, hwaiting⟩ := h
  use later
  constructor
  · rw [List.filterMap_append, ← Multiset.coe_add, add_comm]
    cases hdecided : decided q.program with
    | none =>
        have hnone : [Thread.mk q q.program].filterMap decision = [] := by
          simp [decision, hdecided]
        rw [hnone]
        use done, missing, ds, rs
        apply hseq
    | some result =>
        have hsome : [Thread.mk q q.program].filterMap decision = [(q, result)] := by
          simp [decision, hdecided]
        rw [hsome]
        use done ++ [(q, result)], missing, ds, rs
        apply hseq.serveOne (serve_of_decided_program hdecided later) hseq.devices hseq.rooms
          (Extends.refl _) (Extends.refl _)
  · intro t ht
    rcases List.mem_append.mp ht with ht | ht
    · apply hwaiting t ht
    · obtain rfl := List.mem_singleton.mp ht
      apply Waiting.start

theorem InSequence.step
    (h : InSequence merge start p) {i : Nat}
    (hfinds : Allows (fun s => Finds s.memory) p (.step i))
    (hstep : next (Op.apply merge) Request.program p (.step i) = some u) :
  InSequence merge start u
  := by
  obtain ⟨q, op, k, hi, rfl⟩ := Interleaving.next_step.mp hstep
  obtain ⟨later, ⟨done, missing, ds, rs, hseq⟩, hwaiting⟩ := h
  obtain ⟨later', hextends, hw, hdecided⟩ :=
    hseq.advances (hwaiting _ (List.mem_of_getElem? hi)) (hfinds _ hi op k rfl)
  use later'
  constructor
  · rcases hdecided with ⟨hsame, hseq⟩ | ⟨result, hnone, hsome, hseq⟩
    · rw [Interleaving.filterMap_set_of_eq hi (by simp [decision, hsame])]
      apply hseq
    · have hold : decision ⟨q, .call op k⟩ = none := by simp [decision, hnone]
      have hnew : decision ⟨q, k (op.apply merge p.shared).2⟩ = some (q, result) := by
        simp [decision, hsome]
      rw [Multiset.coe_eq_coe.mpr (Interleaving.filterMap_set_perm hi hold hnew)]
      apply hseq
  · intro t ht
    rcases List.mem_or_eq_of_mem_set ht with ht | rfl
    · apply (hwaiting t ht).extend hextends
    · apply hw

/-- Programs that run one after the other do what their requests come to. -/
theorem exists_serves_exec
    {s : Store} {zs : List (Request × Result)} {r : Registries}
    (h : Serves (serve merge) s.memory zs r) :
  ∃ t, Serves (fun q => exec (Op.apply merge) (Request.program q)) s zs t ∧ t.memory = r
  := by
  induction zs generalizing s with
  | nil => use s, rfl, h
  | cons z zs ih =>
      obtain ⟨q, result⟩ := z
      obtain ⟨hmemory, hresult⟩ := exec_program merge q s
      obtain ⟨h, hzs⟩ := h
      rw [← hmemory] at hzs
      obtain ⟨t, ht, hr⟩ := ih hzs
      use t, ⟨hresult.trans h, ht⟩

theorem filterMap_decision_of_idle (h : Idle p) :
  p.threads.filterMap decision = outcomes p
  := by
  apply List.filterMap_congr
  intro t ht
  have hdone := h t ht
  unfold decision outcome
  cases hrest : t.rest with
  | done result => rfl
  | call op k =>
      rw [hrest] at hdone
      cases hdone

/-- In a run in which the operations find what they are to remove, and the rooms whose devices
they are to change, the requests are served as if in sequence. -/
theorem serializable_of_finds
    (merge : Json → Json → Json) {s : Store} {acts : List (Act Request)}
    {p : Pool Store Request Op Bool Result}
    (hrun : Lts.run (next (Op.apply merge) Request.program) ⟨s, []⟩ acts = some p)
    (hfinds : Lts.Guarded (next (Op.apply merge) Request.program)
      (Allows fun s => Finds s.memory) ⟨s, []⟩ acts)
    (hidle : Idle p) :
  Serializable merge s p
  := by
  have hseq : InSequence merge s.memory p := by
    apply Lts.guarded_induction (P := fun _ p => InSequence merge s.memory p) _ _ hfinds hrun
    · use s.memory
      constructor
      · use [], [], [], []
        apply Sequence.init
      · apply List.forall_mem_nil
    · intro _ t a u _ ht hfinds hstep
      cases a with
      | start q => apply ht.arrive hstep
      | step i => apply ht.step hfinds hstep
  obtain ⟨later, ⟨done, missing, ds, rs, hseq⟩, -⟩ := hseq
  obtain ⟨zs, htotal, hserves⟩ := hseq.exists_serves
  obtain ⟨t, ht, hmemory⟩ := exists_serves_exec hserves
  use zs, t
  constructor
  · rw [← filterMap_decision_of_idle hidle]
    apply Multiset.coe_eq_coe.mp htotal
  · use ht, hmemory

/-- A device is registered. -/
def lampStore : Store where
  memory :=
    ⟨Finmap.insert (Bytes.ofAscii "d1")
      (DeviceService.device (Bytes.ofAscii "d1") (Bytes.ofAscii "Lamp") (Bytes.ofAscii "light")) ∅,
      ∅⟩
  files := ⟨∅, ∅⟩

/-- The device is removed when a command for it has been checked. -/
def staleCommandActs : List (Act Request) :=
  [.start (.deviceCommand (Bytes.ofAscii "d1") .null), .start (.deviceRemove (Bytes.ofAscii "d1")),
    .step 0, .step 1, .step 1, .step 0, .step 0, .step 1]

theorem serializable_of_finds_staleCommandActs :
  ∃ p, Lts.run (next (Op.apply fun _ patch => patch) Request.program) ⟨lampStore, []⟩
      staleCommandActs = some p
    ∧ Serializable (fun _ patch => patch) lampStore p
  := by
  obtain ⟨p, hp⟩ : ∃ p, Lts.run (next (Op.apply fun _ patch => patch) Request.program)
      ⟨lampStore, []⟩ staleCommandActs = some p := ⟨_, rfl⟩
  use p, hp
  apply serializable_of_finds _ hp
  · decide +kernel
  · obtain rfl := Option.some.inj hp
    decide +kernel

/-- Two requests remove one device, and both report success. -/
theorem not_serializable :
  ¬ ∀ (merge : Json → Json → Json) (s : Store) (acts : List (Act Request))
    (p : Pool Store Request Op Bool Result),
    Lts.run (next (Op.apply merge) Request.program) ⟨s, []⟩ acts = some p → Idle p →
    Serializable merge s p
  := by
  intro h
  obtain ⟨xs, t, hperm, hserves, -⟩ := h (fun _ patch => patch) lampStore
    [.start (.deviceRemove (Bytes.ofAscii "d1")), .start (.deviceRemove (Bytes.ofAscii "d1")),
      .step 0, .step 1, .step 0, .step 0, .step 1, .step 1] _ rfl (by decide +kernel)
  have hxs : xs = List.replicate 2
      (.deviceRemove (Bytes.ofAscii "d1"), DeviceService.removed (Bytes.ofAscii "d1")) :=
    List.perm_replicate.mp hperm
  rw [hxs] at hserves
  have hresult := hserves.2.1
  revert hresult
  decide +kernel

end NexusMainframe
