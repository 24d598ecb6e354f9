import NexusMainframe.Http.DeviceStates
import NexusMainframe.Lib.Hidden

/-!
# Restarts between requests

The program keeps the registries in memory and writes the file of a registry in each request that
changes it. It may be stopped or killed between two requests and started again, when the services
load their files. The requests are answered as if it had run on.
-/

namespace NexusMainframe

open Registry (IsSaveable)
open Hidden (Act System)

namespace Http

variable {κ : Type}

/-! ### Stopping and starting -/

/-- `start` of the device and the room service in a new process. -/
def start (pretty : Json.Codec) (deviceFile roomFile : Option Bytes) : Option (Services κ) := do
  let devices ← DeviceRegistry.load pretty.parse ∅ deviceFile
  let rooms ← RoomRegistry.load pretty.parse ∅ roomFile
  some { Services.init with memory := ⟨devices, rooms⟩, deviceFile, roomFile }

/-- `stop` of the room and of the device service; what one throws does not keep the other from
its end. -/
def stop (pretty : Json.Codec) (m : Moment) (s : Services κ) : Services κ :=
  let s := (saveRooms pretty m s fun s => (s, none)).1
  (saveDevices pretty m s fun s => (s, none)).1

/-- How the program ends between two requests. -/
inductive Ending where
  | stopped (m : Moment)
  | killed

/-- The services after the program has ended one way or the other and is started again. -/
def restart (pretty : Json.Codec) (s : Services κ) : Ending → Option (Services κ)
  | .stopped m => start pretty (stop pretty m s).deviceFile (stop pretty m s).roomFile
  | .killed => start pretty s.deviceFile s.roomFile

/-- The requests, each at its moment, with restarts between them. -/
def system (c pretty : Json.Codec) :
    System (Services κ) (Moment × HttpRequest) Ending (Option Response) where
  take s q := handle c pretty q.1 s q.2
  event := restart pretty

/-! ### What a request depends on -/

/-- The file of the devices has been written, or emptied where the serialiser throws. -/
def writeDevices (pretty : Json.Codec) (m : Moment) (s : Services κ) : Services κ :=
  { s with
    deviceFile :=
      some ((DeviceRegistry.save pretty.dump (m.devices.list s.memory.devices)).getD []) }

/-- The file of the rooms has been written. -/
def writeRooms (pretty : Json.Codec) (m : Moment) (s : Services κ) : Services κ :=
  { s with
    roomFile := some ((RoomRegistry.save pretty.dump (m.rooms.list s.memory.rooms)).getD []) }

/-- A relation between the services at two moments that does not look at the log, and that every
change of the services keeps which is made on both sides. -/
structure Congruence (pretty : Json.Codec) (m m' : Moment)
    (R : Services κ → Services κ → Prop) : Prop where
  drawn : m.drawn = m'.drawn
  memory : ∀ {s t}, R s t → s.memory = t.memory
  setMemory : ∀ {s t} memory, R s t → R { s with memory } { t with memory }
  writeDevices : ∀ {s t}, R s t → R (writeDevices pretty m s) (writeDevices pretty m' t)
  writeRooms : ∀ {s t}, R s t → R (writeRooms pretty m s) (writeRooms pretty m' t)
  publish : ∀ {s t} event, R s t → R (s.publish event) (t.publish event)
  setLog : ∀ {s t} log log', R s t → R { s with log } { t with log := log' }

/-- The services are related, and the outcome is the same. -/
structure Alike {ρ : Type} (R : Services κ → Services κ → Prop) (out out' : Services κ × Option ρ) :
    Prop where
  services : R out.1 out'.1
  outcome : out.2 = out'.2

/-- Responses that are the same, or lists of the same values in two orders. -/
def SameListing (c : Json.Codec) (o o' : Response) : Prop :=
  o = o' ∨ ∃ js js', js.Perm js' ∧ o.status = 200 ∧ o'.status = 200
    ∧ c.dump (.array js) = some o.body ∧ c.dump (.array js') = some o'.body

/-- The responses to a request in two runs: an index may come in another order. -/
def HttpRequest.SameResponse (c : Json.Codec) (o o' : Option Response) : HttpRequest → Prop
  | .deviceIndex | .roomIndex => Option.Rel (SameListing c) o o'
  | _ => o = o'

section

variable {c pretty : Json.Codec} {m m' : Moment} {s t : Services κ}
  {R : Services κ → Services κ → Prop}

/-- Having the same registries is such a relation, whatever the orders of the tables are. -/
theorem congruence_memory (hdrawn : m.drawn = m'.drawn) :
  Congruence pretty m m' fun s t : Services κ => s.memory = t.memory
  where
  drawn := hdrawn
  memory h := h
  setMemory _ _ := rfl
  writeDevices h := h
  writeRooms h := h
  publish _ h := h
  setLog _ _ h := h

/-- A registry is saved, and its file written. -/
theorem saveDevices_eq (next : Services κ → Services κ × Option Result) :
  saveDevices pretty m s next
    = if DeviceRegistry.save pretty.dump (m.devices.list s.memory.devices) = none
      then (writeDevices pretty m s, none) else next (writeDevices pretty m s)
  := by
  unfold saveDevices writeDevices
  split
  next htext => simp [htext]
  next htext => simp [htext]

theorem saveRooms_eq (next : Services κ → Services κ × Option Result) :
  saveRooms pretty m s next
    = if RoomRegistry.save pretty.dump (m.rooms.list s.memory.rooms) = none
      then (writeRooms pretty m s, none) else next (writeRooms pretty m s)
  := by
  unfold saveRooms writeRooms
  split
  next htext => simp [htext]
  next htext => simp [htext]

/-- A line is logged in both runs or in none. -/
theorem emit_cases
    (hc : c.Spec) (b b' : LogBroadcaster) (now now' : LogTime) (level source message : Bytes) :
  b.emit c.dump now level source message = none
      ∧ b'.emit c.dump now' level source message = none
    ∨ ∃ logged logged', b.emit c.dump now level source message = some logged
      ∧ b'.emit c.dump now' level source message = some logged'
  := by
  have hnone := emit_eq_none_iff hc b now level source message
  have hnone' := emit_eq_none_iff hc b' now' level source message
  cases hemit : b.emit c.dump now level source message with
  | none => exact .inl ⟨rfl, hnone'.mpr (hnone.mp hemit)⟩
  | some logged =>
      right
      have hsome : b'.emit c.dump now' level source message ≠ none := by
        intro hemit'
        rw [hnone.mpr (hnone'.mp hemit')] at hemit
        cases hemit
      obtain ⟨logged', hlogged'⟩ := Option.ne_none_iff_exists'.mp hsome
      exact ⟨logged, logged', rfl, hlogged'⟩

theorem sameListing_of_perm
    (hc : c.Spec) {js js' : List Json} (h : js.Perm js') :
  Option.Rel (SameListing c) (sendJson c s (.array js)).2 (sendJson c t (.array js')).2
  := by
  have hvalid : (Json.array js).Valid ↔ (Json.array js').Valid := by
    simp only [Json.valid_array, h.mem_iff]
  unfold sendJson
  cases hbody : c.dump (.array js) with
  | none =>
      have hnot := (hc.dump_eq_none _).mp hbody
      rw [(hc.dump_eq_none _).mpr fun h => hnot (hvalid.mpr h)]
      exact .none
  | some body =>
      obtain ⟨body', hbody'⟩ := hc.exists_dump (hvalid.mp (hc.valid_of_dump hbody))
      rw [hbody']
      exact .some (.inr ⟨js, js', h, rfl, rfl, hbody, hbody'⟩)

theorem alike_send (h : R s t) (result : Result) :
  Alike R (send c s result) (send c t result)
  := ⟨h, rfl⟩

theorem alike_sendJson (h : R s t) (j : Json) :
  Alike R (sendJson c s j) (sendJson c t j)
  := ⟨h, rfl⟩

theorem alike_sendResult
    {out out' : Services κ × Option Result} (h : Alike R out out') :
  Alike R (sendResult c out) (sendResult c out')
  := by
  obtain ⟨s, result⟩ := out
  obtain ⟨t, result'⟩ := out'
  obtain rfl : result = result' := h.outcome
  cases result with
  | none => exact ⟨h.services, rfl⟩
  | some result => exact alike_send h.services result

namespace Congruence

variable (hR : Congruence pretty m m' R) (h : R s t)

include hR h

theorem setDevices (devices : DeviceRegistry) :
  R (s.setDevices devices) (t.setDevices devices)
  := by
  unfold Services.setDevices
  rw [hR.memory h]
  apply hR.setMemory _ h

theorem setRooms (rooms : RoomRegistry) :
  R (s.setRooms rooms) (t.setRooms rooms)
  := by
  unfold Services.setRooms
  rw [hR.memory h]
  apply hR.setMemory _ h

theorem expand :
  RoomService.expand s = RoomService.expand t
  := by
  funext room
  simp only [RoomService.expand, hR.memory h]

variable (hpretty : pretty.Spec)

include hpretty

theorem saveDevices
    {next next' : Services κ → Services κ × Option Result}
    (hnext : ∀ u v, R u v → Alike R (next u) (next' v)) :
  Alike R (saveDevices pretty m s next) (saveDevices pretty m' t next')
  := by
  have hsaved : DeviceRegistry.save pretty.dump (m.devices.list s.memory.devices) = none
      ↔ DeviceRegistry.save pretty.dump (m'.devices.list t.memory.devices) = none := by
    rw [hR.memory h]
    exact Registry.save_eq_none_iff_of_perm hpretty
      ((m.devices.lists _).perm (m'.devices.lists _))
  rw [saveDevices_eq, saveDevices_eq]
  simp only [hsaved]
  split
  next => exact ⟨hR.writeDevices h, rfl⟩
  next => exact hnext _ _ (hR.writeDevices h)

theorem saveRooms
    {next next' : Services κ → Services κ × Option Result}
    (hnext : ∀ u v, R u v → Alike R (next u) (next' v)) :
  Alike R (saveRooms pretty m s next) (saveRooms pretty m' t next')
  := by
  have hsaved : RoomRegistry.save pretty.dump (m.rooms.list s.memory.rooms) = none
      ↔ RoomRegistry.save pretty.dump (m'.rooms.list t.memory.rooms) = none := by
    rw [hR.memory h]
    exact Registry.save_eq_none_iff_of_perm hpretty ((m.rooms.lists _).perm (m'.rooms.lists _))
  rw [saveRooms_eq, saveRooms_eq]
  simp only [hsaved]
  split
  next => exact ⟨hR.writeRooms h, rfl⟩
  next => exact hnext _ _ (hR.writeRooms h)

theorem deviceAdd (name type : Bytes) :
  Alike R (DeviceService.add pretty m s name type) (DeviceService.add pretty m' t name type)
  := by
  unfold DeviceService.add
  rw [hR.memory h, hR.drawn]
  split
  next => exact ⟨h, rfl⟩
  next =>
    dsimp only
    split
    next => exact ⟨h, rfl⟩
    next =>
      apply hR.saveDevices (hR.setDevices h _) hpretty
      intro u v huv
      exact ⟨hR.publish _ huv, rfl⟩

theorem deviceRemove (id : Bytes) :
  Alike R (DeviceService.remove pretty m s id) (DeviceService.remove pretty m' t id)
  := by
  unfold DeviceService.remove
  rw [hR.memory h]
  split
  next => exact ⟨h, rfl⟩
  next =>
    apply hR.saveDevices (hR.setDevices h _) hpretty
    intro u v huv
    exact ⟨hR.publish _ huv, rfl⟩

theorem deviceCommand (id : Bytes) (payload : Json) :
  Alike R (DeviceService.command c pretty m s id payload)
    (DeviceService.command c pretty m' t id payload)
  := by
  unfold DeviceService.command
  rw [hR.memory h]
  split
  next => exact ⟨h, rfl⟩
  next =>
    apply hR.saveDevices (hR.setDevices h _) hpretty
    intro u v huv
    split
    next => exact ⟨huv, rfl⟩
    next => exact ⟨hR.publish _ huv, rfl⟩

theorem roomAdd (name : Bytes) :
  Alike R (RoomService.add pretty m s name) (RoomService.add pretty m' t name)
  := by
  unfold RoomService.add
  rw [hR.memory h, hR.drawn]
  split
  next => exact ⟨h, rfl⟩
  next =>
    dsimp only
    split
    next => exact ⟨h, rfl⟩
    next =>
      apply hR.saveRooms (hR.setRooms h _) hpretty
      intro u v huv
      exact ⟨huv, rfl⟩

theorem roomRemove (id : Bytes) :
  Alike R (RoomService.remove pretty m s id) (RoomService.remove pretty m' t id)
  := by
  unfold RoomService.remove
  rw [hR.memory h]
  split
  next => exact ⟨h, rfl⟩
  next =>
    apply hR.saveRooms (hR.setRooms h _) hpretty
    intro u v huv
    exact ⟨huv, rfl⟩

theorem roomAddDevice (roomId deviceId : Bytes) :
  Alike R (RoomService.addDevice pretty m s roomId deviceId)
    (RoomService.addDevice pretty m' t roomId deviceId)
  := by
  unfold RoomService.addDevice
  rw [hR.memory h]
  split
  next => exact ⟨h, rfl⟩
  next =>
    split
    next => exact ⟨h, rfl⟩
    next =>
      split
      next => exact ⟨h, rfl⟩
      next =>
        apply hR.saveRooms (hR.setRooms h _) hpretty
        intro u v huv
        exact ⟨huv, rfl⟩

theorem roomRemoveDevice (roomId deviceId : Bytes) :
  Alike R (RoomService.removeDevice pretty m s roomId deviceId)
    (RoomService.removeDevice pretty m' t roomId deviceId)
  := by
  unfold RoomService.removeDevice
  rw [hR.memory h]
  split
  next => exact ⟨h, rfl⟩
  next =>
    split
    next => exact ⟨h, rfl⟩
    next =>
      apply hR.saveRooms (hR.setRooms h _) hpretty
      intro u v huv
      exact ⟨huv, rfl⟩

variable (hc : c.Spec)

include hc

/-- A request does the same to services that are related, but for the order of an index. -/
theorem handle (q : HttpRequest) :
  R (handle c pretty m s q).1 (handle c pretty m' t q).1
    ∧ q.SameResponse c (handle c pretty m s q).2 (handle c pretty m' t q).2
  := by
  have hmemory := hR.memory h
  have hboth : ∀ {out out' : Services κ × Option Response}, Alike R out out' →
      R out.1 out'.1 ∧ out.2 = out'.2 := fun hout => ⟨hout.services, hout.outcome⟩
  cases q with
  | deviceIndex =>
      use h
      simp only [Http.handle, DeviceController.index, hmemory]
      exact sameListing_of_perm hc (((m.devices.lists _).perm (m'.devices.lists _)).map _)
  | roomIndex =>
      use h
      simp only [Http.handle, RoomController.index, hmemory, hR.expand h]
      exact sameListing_of_perm hc (((m.rooms.lists _).perm (m'.rooms.lists _)).map _)
  | deviceShow id =>
      apply hboth
      simp only [Http.handle, DeviceController.show', hmemory]
      split
      next => exact alike_send h _
      next => exact alike_sendJson h _
  | roomShow id =>
      apply hboth
      simp only [Http.handle, RoomController.show', hmemory, hR.expand h]
      split
      next => exact alike_send h _
      next => exact alike_sendJson h _
  | deviceCreate raw =>
      apply hboth
      simp only [Http.handle, DeviceController.create]
      split
      next => exact alike_send h _
      next =>
        split
        next => exact alike_sendResult (hR.deviceAdd h hpretty _ _)
        next => exact ⟨h, rfl⟩
  | roomCreate raw =>
      apply hboth
      simp only [Http.handle, RoomController.create]
      split
      next => exact alike_send h _
      next =>
        split
        next => exact alike_sendResult (hR.roomAdd h hpretty _)
        next => exact ⟨h, rfl⟩
  | deviceDestroy id => exact hboth (alike_sendResult (hR.deviceRemove h hpretty id))
  | roomDestroy id => exact hboth (alike_sendResult (hR.roomRemove h hpretty id))
  | roomAddDevice roomId deviceId =>
      exact hboth (alike_sendResult (hR.roomAddDevice h hpretty roomId deviceId))
  | roomRemoveDevice roomId deviceId =>
      exact hboth (alike_sendResult (hR.roomRemoveDevice h hpretty roomId deviceId))
  | deviceCommand id raw =>
      apply hboth
      simp only [Http.handle, DeviceController.command]
      split
      next => exact alike_send h _
      next =>
        split
        next => exact alike_send h _
        next command _ =>
          rcases emit_cases hc s.log t.log m.now m'.now (Bytes.ofAscii "info")
            (Bytes.ofAscii "DeviceController") (Bytes.ofAscii "Command '" ++ command
              ++ Bytes.ofAscii "' for device '" ++ id ++ Bytes.ofAscii "'") with
            ⟨hemit, hemit'⟩ | ⟨logged, logged', hemit, hemit'⟩
          · rw [hemit, hemit']
            exact ⟨h, rfl⟩
          · rw [hemit, hemit']
            dsimp only
            split
            next => exact ⟨hR.setLog _ _ h, rfl⟩
            next payload _ =>
              apply alike_sendResult
              apply hR.deviceCommand (hR.setLog _ _ h) hpretty
        next => exact ⟨h, rfl⟩

end Congruence

/-- At one moment an index comes in one order. -/
theorem Congruence.handle_same
    (hR : Congruence pretty m m R) (h : R s t) (hpretty : pretty.Spec) (hc : c.Spec)
    (q : HttpRequest) :
  Alike R (Http.handle c pretty m s q) (Http.handle c pretty m t q)
  := by
  obtain ⟨hservices, hresponse⟩ := hR.handle h hpretty hc q
  cases q with
  | deviceIndex =>
      use hservices
      simp only [Http.handle, DeviceController.index, sendJson, hR.memory h]
  | roomIndex =>
      use hservices
      simp only [Http.handle, RoomController.index, sendJson, hR.memory h, hR.expand h]
  | _ => exact ⟨hservices, hresponse⟩

end

/-! ### What is in the files -/

/-- The registries and their files are as they were. -/
structure SameStore (s t : Services κ) : Prop where
  memory : t.memory = s.memory
  deviceFile : t.deviceFile = s.deviceFile
  roomFile : t.roomFile = s.roomFile

/-- A registry whose file is not written anew is as it was, and so is the file. -/
structure Saves (pretty : Json.Codec) (m : Moment) (s t : Services κ) : Prop where
  devices : t.memory.devices = s.memory.devices ∧ t.deviceFile = s.deviceFile
    ∨ t.deviceFile
      = some ((DeviceRegistry.save pretty.dump (m.devices.list t.memory.devices)).getD [])
  rooms : t.memory.rooms = s.memory.rooms ∧ t.roomFile = s.roomFile
    ∨ t.roomFile = some ((RoomRegistry.save pretty.dump (m.rooms.list t.memory.rooms)).getD [])

section

variable {c pretty : Json.Codec} {m : Moment} {s t : Services κ}
  {next : Services κ → Services κ × Option Result}

theorem SameStore.trans {u : Services κ} (h : SameStore s t) (h' : SameStore t u) :
  SameStore s u
  where
  memory := h'.memory.trans h.memory
  deviceFile := h'.deviceFile.trans h.deviceFile
  roomFile := h'.roomFile.trans h.roomFile

theorem SameStore.saves (h : SameStore s t) :
  Saves pretty m s t
  := by
  constructor
  · left
    exact ⟨congrArg Registries.devices h.memory, h.deviceFile⟩
  · left
    exact ⟨congrArg Registries.rooms h.memory, h.roomFile⟩

theorem saves_refl : Saves pretty m s s :=
  SameStore.saves ⟨rfl, rfl, rfl⟩

theorem saves_saveDevices (devices : DeviceRegistry) (hnext : ∀ u, SameStore u (next u).1) :
  Saves pretty m s (saveDevices pretty m (s.setDevices devices) next).1
  := by
  unfold saveDevices
  split
  next text htext =>
    have hkept := hnext { s.setDevices devices with deviceFile := some text }
    constructor
    · right
      rw [hkept.deviceFile, hkept.memory, htext]
      rfl
    · left
      rw [hkept.memory, hkept.roomFile]
      exact ⟨rfl, rfl⟩
  next htext =>
    constructor
    · right
      rw [htext]
      rfl
    · left
      exact ⟨rfl, rfl⟩

theorem saves_saveRooms (rooms : RoomRegistry) (hnext : ∀ u, SameStore u (next u).1) :
  Saves pretty m s (saveRooms pretty m (s.setRooms rooms) next).1
  := by
  unfold saveRooms
  split
  next text htext =>
    have hkept := hnext { s.setRooms rooms with roomFile := some text }
    constructor
    · left
      rw [hkept.memory, hkept.deviceFile]
      exact ⟨rfl, rfl⟩
    · right
      rw [hkept.roomFile, hkept.memory, htext]
      rfl
  next htext =>
    constructor
    · left
      exact ⟨rfl, rfl⟩
    · right
      rw [htext]
      rfl

theorem DeviceService.saves_add (name type : Bytes) :
  Saves pretty m s (add pretty m s name type).1
  := by
  unfold add
  split
  next => exact saves_refl
  next =>
    dsimp only
    split
    next => exact saves_refl
    next =>
      apply saves_saveDevices
      intro u
      exact ⟨rfl, rfl, rfl⟩

theorem DeviceService.saves_remove (id : Bytes) :
  Saves pretty m s (remove pretty m s id).1
  := by
  unfold remove
  split
  next => exact saves_refl
  next =>
    apply saves_saveDevices
    intro u
    exact ⟨rfl, rfl, rfl⟩

theorem DeviceService.saves_command (id : Bytes) (payload : Json) :
  Saves pretty m s (command c pretty m s id payload).1
  := by
  unfold command
  split
  next => exact saves_refl
  next =>
    apply saves_saveDevices
    intro u
    split <;> exact ⟨rfl, rfl, rfl⟩

theorem RoomService.saves_add (name : Bytes) :
  Saves pretty m s (add pretty m s name).1
  := by
  unfold add
  split
  next => exact saves_refl
  next =>
    dsimp only
    split
    next => exact saves_refl
    next =>
      apply saves_saveRooms
      intro u
      exact ⟨rfl, rfl, rfl⟩

theorem RoomService.saves_remove (id : Bytes) :
  Saves pretty m s (remove pretty m s id).1
  := by
  unfold remove
  split
  next => exact saves_refl
  next =>
    apply saves_saveRooms
    intro u
    exact ⟨rfl, rfl, rfl⟩

theorem RoomService.saves_addDevice (roomId deviceId : Bytes) :
  Saves pretty m s (addDevice pretty m s roomId deviceId).1
  := by
  unfold addDevice
  split
  next => exact saves_refl
  next =>
    split
    next => exact saves_refl
    next =>
      split
      next => exact saves_refl
      next =>
        apply saves_saveRooms
        intro u
        exact ⟨rfl, rfl, rfl⟩

theorem RoomService.saves_removeDevice (roomId deviceId : Bytes) :
  Saves pretty m s (removeDevice pretty m s roomId deviceId).1
  := by
  unfold removeDevice
  split
  next => exact saves_refl
  next =>
    split
    next => exact saves_refl
    next =>
      apply saves_saveRooms
      intro u
      exact ⟨rfl, rfl, rfl⟩

/-- A handler writes the file of each registry that it changes. -/
theorem Handled.saves (h : Handled c pretty m s t) :
  Saves pretty m s t
  := by
  cases h with
  | stays h => exact SameStore.saves ⟨h.memory, h.deviceFile, h.roomFile⟩
  | deviceAdd _ _ => apply DeviceService.saves_add
  | deviceRemove id => apply DeviceService.saves_remove
  | @deviceCommand id command members log _ _ =>
      have hsaves : Saves pretty m { s with log := log }
          (DeviceService.command c pretty m { s with log := log } id
            (withCommand command members)).1 :=
        DeviceService.saves_command id (withCommand command members)
      exact ⟨hsaves.devices, hsaves.rooms⟩
  | roomAdd _ => apply RoomService.saves_add
  | roomRemove id => apply RoomService.saves_remove
  | roomAddDevice roomId deviceId => apply RoomService.saves_addDevice
  | roomRemoveDevice roomId deviceId => apply RoomService.saves_removeDevice

end

/-! ### Registries that come back -/

/-- The registries can be saved, and the files load to them. -/
structure Durable (pretty : Json.Codec) (s : Services κ) : Prop where
  devices : HoldsObjects s.memory.devices
  rooms : IsSaveable Room.entry s.memory.rooms
  loadDevices : DeviceRegistry.load pretty.parse ∅ s.deviceFile = some s.memory.devices
  loadRooms : RoomRegistry.load pretty.parse ∅ s.roomFile = some s.memory.rooms

section

variable {c pretty : Json.Codec} {m : Moment} {s t : Services κ} {r : Registries} {q : Request}

/-- A request keeps rooms that can be saved. -/
theorem isSaveable_rooms_serve
    (hdevices : IsSaveable Device.entry r.devices) (hrooms : IsSaveable Room.entry r.rooms)
    (hq : Generates q) :
  IsSaveable Room.entry (serve Json.mergePatch q r).1.rooms
  := by
  cases q with
  | deviceAdd id name type =>
      simp only [serve]
      split
      next => exact hrooms
      next => split <;> exact hrooms
  | deviceRemove id | deviceCommand id payload =>
      simp only [serve]
      split <;> exact hrooms
  | roomAdd id name =>
      simp only [serve]
      split
      next => exact hrooms
      next =>
        split
        next => exact hrooms
        next =>
          obtain ⟨⟨drawn, rfl⟩, hname⟩ := hq
          have hroom : (NexusMainframe.RoomService.room (generateId drawn)
              name).toJson.WellFormed :=
            Room.wellFormed_toJson.mpr ⟨List.forall_mem_nil _, valid_generateId drawn, hname⟩
          apply hrooms.insert hroom
  | roomRemove id =>
      simp only [serve]
      split
      next => exact hrooms
      next room hroom =>
        have hremove := hrooms.remove id
        rwa [Registry.remove_of_lookup_some hroom] at hremove
  | roomAddDevice roomId deviceId =>
      simp only [serve]
      split
      next => exact hrooms
      next => exact hrooms
      next room d hroom hd =>
        split
        next => exact hrooms
        next =>
          apply RoomOp.isSaveable_insert hrooms hroom
          intro id hid
          rcases List.mem_append.mp hid with hmem | hnew
          · left
            apply hmem
          · right
            -- the device is registered, and its id is the one it has there
            rw [List.mem_singleton.mp hnew, ← hdevices.contents.id_of_lookup hd]
            apply (Device.wellFormed_toJson.mp (hdevices.wellFormed_of_lookup hd)).1
  | roomRemoveDevice roomId deviceId =>
      simp only [serve]
      split
      next => exact hrooms
      next room hroom =>
        split
        next =>
          apply RoomOp.isSaveable_insert hrooms hroom
          intro id hid
          left
          apply List.mem_of_mem_erase hid
        next => exact hrooms

/-- A registry that can be saved is loaded from what is written of it. -/
theorem load_of_save
    {ε : Type} {entry : RegistryEntry ε} {r : Registry ε} {es : List ε} (hpretty : pretty.Spec)
    (h : IsSaveable entry r) (hes : Registry.Lists es r) :
  Registry.load entry pretty.parse ∅
      (some ((Registry.save entry pretty.dump es).getD []))
    = some r
  := by
  obtain ⟨text, htext, hload⟩ := h.restores hpretty es hes
  rw [htext]
  apply hload

namespace Durable

theorem of_saves
    (hpretty : pretty.Spec) (h : Durable pretty s) (hsaves : Saves pretty m s t)
    (hdevices : HoldsObjects t.memory.devices) (hrooms : IsSaveable Room.entry t.memory.rooms) :
  Durable pretty t
  := by
  refine ⟨hdevices, hrooms, ?_, ?_⟩
  · rcases hsaves.devices with ⟨hmemory, hfile⟩ | hfile
    · rw [hmemory, hfile]
      apply h.loadDevices
    · rw [hfile]
      apply load_of_save hpretty hdevices.saveable (m.devices.lists _)
  · rcases hsaves.rooms with ⟨hmemory, hfile⟩ | hfile
    · rw [hmemory, hfile]
      apply h.loadRooms
    · rw [hfile]
      apply load_of_save hpretty hrooms (m.rooms.lists _)

theorem handle (hc : c.Spec) (hpretty : pretty.Spec) (h : Durable pretty s) (m : Moment)
    (q : HttpRequest) :
  Durable pretty (handle c pretty m s q).1
  := by
  have hhandled := handled hc pretty m s q
  apply h.of_saves hpretty hhandled.saves
  · apply holdsObjects_handleAll hc h.devices [(m, q)]
  · rcases hhandled.memory with hsame | ⟨q', -, hq', hserve⟩
    · rw [hsame]
      apply h.rooms
    · rw [hserve]
      apply isSaveable_rooms_serve h.devices.saveable h.rooms hq'

/-- A registry that is saved, and nothing else. -/
theorem saveRooms (hpretty : pretty.Spec) (h : Durable pretty s) (m : Moment) :
  Durable pretty (saveRooms pretty m s fun u => (u, none)).1
    ∧ (saveRooms pretty m s fun u => (u, none)).1.memory = s.memory
  := by
  have hmemory : (Http.saveRooms pretty m s fun u => (u, none)).1.memory = s.memory := by
    unfold Http.saveRooms
    split <;> rfl
  refine ⟨h.of_saves hpretty (saves_saveRooms s.memory.rooms fun u => ⟨rfl, rfl, rfl⟩) ?_ ?_,
    hmemory⟩
  · exact hmemory ▸ h.devices
  · exact hmemory ▸ h.rooms

theorem saveDevices (hpretty : pretty.Spec) (h : Durable pretty s) (m : Moment) :
  Durable pretty (saveDevices pretty m s fun u => (u, none)).1
    ∧ (saveDevices pretty m s fun u => (u, none)).1.memory = s.memory
  := by
  have hmemory : (Http.saveDevices pretty m s fun u => (u, none)).1.memory = s.memory := by
    unfold Http.saveDevices
    split <;> rfl
  refine ⟨h.of_saves hpretty (saves_saveDevices s.memory.devices fun u => ⟨rfl, rfl, rfl⟩) ?_ ?_,
    hmemory⟩
  · exact hmemory ▸ h.devices
  · exact hmemory ▸ h.rooms

/-- Stopping writes both files again. -/
theorem stop (hpretty : pretty.Spec) (h : Durable pretty s) (m : Moment) :
  Durable pretty (stop pretty m s) ∧ (stop pretty m s).memory = s.memory
  := by
  obtain ⟨hrooms, hmemory⟩ := h.saveRooms hpretty m
  obtain ⟨hdevices, hmemory'⟩ := hrooms.saveDevices hpretty m
  exact ⟨hdevices, hmemory'.trans hmemory⟩

theorem start (h : Durable pretty s) :
  ∃ t : Services κ, start pretty s.deviceFile s.roomFile = some t ∧ Durable pretty t
    ∧ t.memory = s.memory
  := by
  refine ⟨{ Services.init with
    memory := s.memory, deviceFile := s.deviceFile, roomFile := s.roomFile }, ?_, ?_, rfl⟩
  · rw [Http.start, h.loadDevices, h.loadRooms]
    rfl
  · exact ⟨h.devices, h.rooms, h.loadDevices, h.loadRooms⟩

end Durable

theorem durable_init (pretty : Json.Codec) :
  Durable pretty (Services.init : Services κ)
  := ⟨holdsObjects_empty, Registry.isSaveable_empty Room.entry, rfl, rfl⟩

/-- The requests do not notice a restart. -/
theorem transparent_system (hc : c.Spec) (hpretty : pretty.Spec) :
  (system c pretty : System (Services κ) _ _ _).Transparent Services.memory (Durable pretty)
  where
  view_take q h := ((congruence_memory rfl).handle_same h hpretty hc q.2).services
  output_take q h := ((congruence_memory rfl).handle_same h hpretty hc q.2).outcome
  inv_take {s} q h := h.handle hc hpretty q.1 q.2
  event {s} ending h := by
    cases ending with
    | killed => exact h.start
    | stopped m =>
        obtain ⟨hstop, hmemory⟩ := h.stop hpretty m
        rw [← hmemory]
        exact hstop.start

end

/-! ### Runs -/

end Http

end NexusMainframe
